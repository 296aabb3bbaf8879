import DeskCalculator.Proofs.Tokens.Stream

/-!
# `DeskCalculator.Proofs.Tokens.Readers`: readers over one text

A text can be read by any number of readers, each of them a copy of an
earlier one or the first. A reader is asked for a token, for the next token
of its stream, or for all that is left of its stream. What it answers
depends on how many tokens it was asked for before, by whatever means and
whether before or after it was copied, and on whether its stream has come to
the mark.

* `read_eq`, `next?_eq`, `drain_eq`: what one request yields, in terms of
  the tokens that are left.
* `Handle.Follows`: where a reader stands that has delivered some tokens.
  `Follows.ask` is the step, for each of the three requests, and
  `follows_handles` the run over any actions.
* `readers_deliver`: what readers deliver, after any requests and copies in
  any order.

The actions address readers by number, and an action on a number that no
reader has does nothing. A handle keeps what its reader has delivered. This
is bookkeeping of the proof, and no reader looks at it: what it answers is
computed from its cursor and its flag.

The two ways to read differ at the end of the text. A reader that is asked
for tokens gets the mark again and again; the stream of the same reader
gives it once, and only if it was the stream that gave it
(`Handle.Stopped`).
-/

set_option autoImplicit false

namespace DeskCalculator

open Text (byteLength)

namespace Reader

/-! ### Requests

What can be done with readers, and what is recorded of it. The record is
made beside the readers and is never read by them. -/

/-- What a reader can be asked for. The first is how the parser reads, the
other two belong to the stream. -/
inductive Request where
  /-- A token. -/
  | token
  /-- The next token of the stream. -/
  | next
  /-- All that is left of the stream. -/
  | rest
  deriving Repr, DecidableEq

/-- What a request yields, and the reader after it. A stream that is over
yields nothing; a token that is asked for is always yielded. -/
def ask (r : Reader) : Request → List Token × Reader
  | .token => ([r.read.1], r.read.2)
  | .next => (r.next?.1.toList, r.next?.2)
  | .rest => r.drain

/-- A token that was delivered, and whether it was by the stream. Both count
for how far a reader has come, but only the stream can end the stream. -/
structure Delivery where
  token : Token
  streamed : Bool
  deriving DecidableEq

/-- A reader and all that it has delivered. A copy has delivered what the
copied reader had, as it goes on from there. -/
structure Handle where
  reader : Reader
  delivered : List Delivery := []

namespace Handle

/-- The reader is asked, and delivers. -/
def ask (h : Handle) (request : Request) : Handle :=
  { reader := (h.reader.ask request).2
    delivered := h.delivered ++ (h.reader.ask request).1.map fun token =>
      { token, streamed := request ≠ .token } }

/-- The stream has delivered the mark. A mark that was delivered otherwise
does not count. -/
def Stopped (h : Handle) : Prop :=
  ∃ d ∈ h.delivered, d.streamed = true ∧ d.token.kind = .endOfInput

instance (h : Handle) : Decidable h.Stopped :=
  inferInstanceAs (Decidable (∃ d ∈ h.delivered, d.streamed = true ∧ d.token.kind = .endOfInput))

end Handle

/-- What can be done with readers, which are numbered in the order in which
they were made. -/
inductive Action where
  | ask (reader : Nat) (request : Request)
  | copy (reader : Nat)
  deriving Repr, DecidableEq

/-- The readers after an action. One that is asked changes, a copy is added,
and the others stay as they are. -/
def act (handles : List Handle) : Action → List Handle
  | .ask reader request => handles.modify reader (·.ask request)
  | .copy reader => handles ++ handles[reader]?.toList

/-- The readers over a text after some actions, which begin with the first
reader. -/
def handles (text : String) (actions : List Action) : List Handle :=
  actions.foldl act [{ reader := { text } }]

/-! ### One request

The three requests as equations, in terms of the tokens that are left.
Asking for all that is left is asking for one token and then for the
rest. -/

section Ask

variable (r : Reader)

/-- A token that is asked for is the first one left, or the mark. The text
and the flag of the stream stay: asking for a token is no business of the
stream. -/
theorem read_eq :
    r.read.1 = r.cursor.tokens.headD (Token.endOfInput r.cursor.stop) ∧
      r.read.2.text = r.text ∧ r.read.2.ended = r.ended ∧
      r.read.2.cursor.tokens = r.cursor.tokens.tail ∧ r.read.2.cursor.stop = r.cursor.stop := by
  obtain ⟨hfirst, htail, hstop⟩ := r.cursor.next_eq
  exact ⟨hfirst, rfl, rfl, htail, hstop⟩

/-- The mark is read where no token is left, and only there, since no token
has its kind. -/
theorem kind_read : r.read.1.kind = .endOfInput ↔ r.cursor.tokens = [] := by
  rw [r.read_eq.1]
  cases htokens : r.cursor.tokens with
  | nil => exact ⟨fun _ => rfl, fun _ => rfl⟩
  | cons t tokens =>
      have hkind := r.cursor.kind_ne_endOfInput t (htokens ▸ List.mem_cons_self)
      exact ⟨fun h => absurd h hkind, fun h => nomatch h⟩

variable {r}

/-- A stream that is not over yields what a reader is asked for, and is over
with the mark. -/
theorem next?_eq (h : r.ended = false) :
    r.next? = (some r.read.1, { r.read.2 with ended := r.read.1.kind = .endOfInput }) := by
  unfold next?
  rw [if_neg (by simp [h])]

/-- A stream that is over yields nothing, and the reader is not changed. So
it stays over, however often it is asked. -/
theorem next?_of_ended (h : r.ended = true) : r.next? = (none, r) := if_pos h

/-- A stream that is over has nothing left, and the reader is not changed.
The same for a reader that is asked for all that is left. -/
theorem drain_of_ended (h : r.ended = true) : r.drain = ([], r) := if_pos h

/-- What is left of a stream that is not over are the tokens that are left,
and the mark. The cursor must belong to the text of the reader: the mark is
put behind the last byte of the text, and the cursor is set there. -/
theorem drain_eq (h : r.ended = false) (hstop : r.cursor.stop = byteLength r.text.toList) :
    r.drain = (r.cursor.tokens ++ [Token.endOfInput r.cursor.stop],
      { r with cursor := ⟨[], r.cursor.stop⟩, ended := true }) := by
  unfold drain
  rw [if_neg (by simp [h]), hstop]

/-- Where no token is left, reading leaves the cursor behind the last
character, and not before a gap at the end. So it is the same cursor that
draining leaves. -/
theorem next_of_tokens_nil {c : Cursor} (h : c.tokens = []) :
    c.next = (Token.endOfInput c.stop, ⟨[], c.stop⟩) := by
  have hnone : c.next? = none := by
    cases hnext : c.next? with
    | none => rfl
    | some p =>
        rw [Cursor.tokens_eq_cons hnext] at h
        cases h
  have hskip := @Cursor.skipGap_append c.rest [] (Cursor.next?_eq_none_iff.mp hnone)
    (fun x hx => by cases hx) c.offset
  rw [List.append_nil] at hskip
  rw [Cursor.next, hnone, hskip]
  rfl

/-- Taking all that is left of a stream is taking one token, if there is
one, and then all that is left. By this the third request is reduced to the
second (`Follows.ask_rest_eq`), although the reader answers it in one go. -/
theorem drain_eq_next? (hstop : r.cursor.stop = byteLength r.text.toList) :
    r.drain = (r.next?.1.toList ++ r.next?.2.drain.1, r.next?.2.drain.2) := by
  cases hended : r.ended with
  | true => simp [next?_of_ended hended, drain_of_ended hended]
  | false =>
      obtain ⟨hfirst, htext, -, htail, hstop'⟩ := r.read_eq
      rw [next?_eq hended, drain_eq hended hstop]
      cases htokens : r.cursor.tokens with
      | nil =>
          -- The mark ends the stream, and the reader stands where draining
          -- leaves it.
          have hkind := r.kind_read.mpr htokens
          rw [drain_of_ended (decide_eq_true hkind), hfirst, htokens]
          simp only [read, next_of_tokens_nil htokens]
          rfl
      | cons t tokens =>
          have hkind : r.read.1.kind ≠ .endOfInput := fun h => by
            have := r.kind_read.mp h
            rw [htokens] at this
            cases this
          -- One token was taken, and the stream goes on behind it.
          rw [htokens] at hfirst htail
          rw [drain_eq (decide_eq_false hkind) (by rw [htext, ← hstop, ← hstop'])]
          simp only [htail, hstop', hfirst]
          rfl

end Ask

/-! ### What was delivered

The number of deliveries says where a reader stands. One lemma for each
request says that this stays so, and with it what is delivered is known. -/

/-- The token behind `count` others, or the mark. What a reader has to
answer that has delivered as many tokens. -/
def tokenAfter (text : String) (count : Nat) : Token :=
  ((Cursor.ofText text).tokens.drop count).headD (Token.endOfInput (byteLength text.toList))

/-- It is the token in this place of the text, or the last one. The list
`tokenize` ends with the mark, so its last place is the one where a reader
stays. -/
theorem getElem?_tokenize (text : String) (count : Nat) :
    (tokenize text)[min count ((tokenize text).length - 1)]? = some (tokenAfter text count) := by
  rw [tokenize, tokenAfter]
  generalize (Cursor.ofText text).tokens = tokens
  rw [List.length_append, List.length_singleton, Nat.add_sub_cancel]
  rcases Nat.lt_or_ge count tokens.length with hlt | hge
  · rw [Nat.min_eq_left hlt.le, List.getElem?_append_left hlt, List.drop_eq_getElem_cons hlt,
      List.getElem?_eq_getElem hlt]
    rfl
  · rw [Nat.min_eq_right hge, List.drop_eq_nil_of_le hge]
    simp

/-- Where a reader stands that has delivered some tokens. The invariant of
all actions: what a reader has delivered decides how many tokens are left
and whether its stream is over. -/
structure Handle.Follows (text : String) (h : Handle) : Prop where
  text_eq : h.reader.text = text
  stop : h.reader.cursor.stop = byteLength text.toList
  /-- As many tokens are gone as were delivered. -/
  left : h.reader.cursor.tokens = (Cursor.ofText text).tokens.drop h.delivered.length
  delivered : ∀ i d, h.delivered[i]? = some d → d.token = tokenAfter text i
  ended : h.reader.ended = true ↔ h.Stopped

namespace Handle.Follows

variable {text : String} {h : Handle}

/-- The first reader has delivered nothing, and all the tokens of the text
are left. -/
theorem first (text : String) : ({ reader := { text } } : Handle).Follows text where
  text_eq := rfl
  stop := Nat.zero_add _
  left := rfl
  delivered _ _ hd := nomatch hd
  ended := by simp [Stopped]

/-- A stream that is not over has not delivered the mark. In the form that
`next?_eq` and `drain_eq` ask for. -/
theorem ended_eq_false (hh : h.Follows text) (hrunning : ¬h.Stopped) : h.reader.ended = false :=
  Bool.eq_false_iff.mpr fun hended => hrunning (hh.ended.mp hended)

/-- The next token is the one behind those that were delivered. This is what
`delivered` of the invariant needs for one more token. -/
theorem read_token (hh : h.Follows text) :
    h.reader.read.1 = tokenAfter text h.delivered.length := by
  rw [h.reader.read_eq.1, hh.left, hh.stop, tokenAfter]

/-- One more token is delivered, and the reader stands behind it. Covers a
token that is asked for and one of the stream: the two differ in the flag,
whose new value is described by `hended`. -/
theorem deliver (hh : h.Follows text) {r : Reader} (streamed : Bool)
    (hcursor : r.cursor = h.reader.read.2.cursor) (htext : r.text = h.reader.text)
    (hended : r.ended = true ↔
      h.reader.ended = true ∨ streamed = true ∧ h.reader.read.1.kind = .endOfInput) :
    ({ reader := r, delivered := h.delivered ++ [⟨h.reader.read.1, streamed⟩] } : Handle).Follows
      text := by
  obtain ⟨-, -, -, htail, hstop⟩ := h.reader.read_eq
  refine ⟨htext.trans hh.text_eq, ?_, ?_, fun i d hd => ?_, ?_⟩
  · show r.cursor.stop = _
    rw [hcursor, hstop, hh.stop]
  · show r.cursor.tokens = _
    rw [hcursor, htail, hh.left, List.tail_drop, List.length_append, List.length_singleton]
  · rw [List.getElem?_append] at hd
    split at hd
    · exact hh.delivered i d hd
    · next hge =>
        -- Behind the others there is only the new token.
        rw [List.getElem?_singleton] at hd
        split at hd
        · obtain rfl := Option.some.inj hd
          rw [show i = h.delivered.length by omega]
          exact hh.read_token
        · cases hd
  · show r.ended = true ↔ _
    rw [hended, hh.ended]
    simp [Stopped, or_and_right, exists_or]

/-- A token that is asked for is delivered, and the stream goes on as
before, one token further. -/
theorem ask_token (hh : h.Follows text) : (h.ask .token).Follows text :=
  hh.deliver false rfl h.reader.read_eq.2.1 (by simp [h.reader.read_eq.2.2.1, Reader.ask])

/-- A stream that is over delivers nothing, so the handle is not changed by
the two requests to it. -/
theorem ask_of_stopped (hh : h.Follows text) (hstopped : h.Stopped) {request : Request}
    (hstream : request ≠ .token) : h.ask request = h := by
  have hended := hh.ended.mpr hstopped
  cases request with
  | token => exact absurd rfl hstream
  | next => simp [ask, Reader.ask, next?_of_ended hended]
  | rest => simp [ask, Reader.ask, drain_of_ended hended]

/-- A stream that is not over delivers the token that a reader is asked for,
and is over with the mark. -/
theorem ask_next_eq (hended : h.reader.ended = false) :
    h.ask .next =
      { reader := { h.reader.read.2 with ended := h.reader.read.1.kind = .endOfInput }
        delivered := h.delivered ++ [⟨h.reader.read.1, true⟩] } := by
  simp only [ask, Reader.ask, next?_eq hended]
  rfl

/-- The stream delivers a token, unless it is over. The mark at the end is
delivered too, once. -/
theorem ask_next (hh : h.Follows text) : (h.ask .next).Follows text := by
  by_cases hstopped : h.Stopped
  · rw [hh.ask_of_stopped hstopped (by decide)]
    exact hh
  · have hended := hh.ended_eq_false hstopped
    rw [ask_next_eq hended]
    exact hh.deliver true rfl h.reader.read_eq.2.1 (by simp [hended])

/-- Asking for all that is left of the stream is asking for a token of it
first. -/
theorem ask_rest_eq (hh : h.Follows text) : h.ask .rest = (h.ask .next).ask .rest := by
  have hstop : h.reader.cursor.stop = byteLength h.reader.text.toList := by
    rw [hh.text_eq]
    exact hh.stop
  simp only [ask, Reader.ask]
  rw [drain_eq_next? hstop]
  simp

/-- The stream delivers all that is left of it. Induction on the tokens that
are left: with each of them the stream goes on, and with the mark it is
over. -/
theorem ask_rest (hh : h.Follows text) : (h.ask .rest).Follows text := by
  induction hlength : h.reader.cursor.tokens.length generalizing h with
  | zero =>
      by_cases hstopped : h.Stopped
      · rw [hh.ask_of_stopped hstopped (by decide)]
        exact hh
      · -- No token is left, so the next one is the mark, and behind it
        -- nothing is delivered.
        have hkind := h.reader.kind_read.mpr (List.length_eq_zero_iff.mp hlength)
        have hstopped' : (h.ask .next).Stopped := by
          rw [ask_next_eq (hh.ended_eq_false hstopped)]
          exact ⟨_, List.mem_append_right _ (List.mem_singleton_self _), rfl, hkind⟩
        rw [hh.ask_rest_eq, hh.ask_next.ask_of_stopped hstopped' (by decide)]
        exact hh.ask_next
  | succ n ih =>
      by_cases hstopped : h.Stopped
      · rw [hh.ask_of_stopped hstopped (by decide)]
        exact hh
      · rw [hh.ask_rest_eq]
        refine ih hh.ask_next ?_
        rw [ask_next_eq (hh.ended_eq_false hstopped)]
        show h.reader.read.2.cursor.tokens.length = n
        rw [h.reader.read_eq.2.2.2.1, List.length_tail, hlength, Nat.add_sub_cancel]

/-- Every request is answered with what comes next. The step of the
invariant, for a reader that is asked. -/
theorem ask (hh : h.Follows text) (request : Request) : (h.ask request).Follows text := by
  cases request with
  | token => exact hh.ask_token
  | next => exact hh.ask_next
  | rest => exact hh.ask_rest

end Handle.Follows

/-! ### All readers

An action changes one reader or adds one, and the others stay where they
are. -/

/-- An action leaves every reader where its own deliveries have brought it:
the one that is asked, by `Follows.ask`; a copy, because it has the cursor
and the deliveries of the copied reader; and the others, because they are
not touched. -/
theorem follows_act {text : String} {hs : List Handle} (hfollows : ∀ h ∈ hs, h.Follows text)
    (action : Action) : ∀ h ∈ act hs action, h.Follows text := by
  intro h hh
  cases action with
  | ask reader request =>
      obtain ⟨i, hi⟩ := List.mem_iff_getElem?.mp hh
      rw [act, List.getElem?_modify] at hi
      obtain ⟨h', hmem, heq⟩ := Option.map_eq_some_iff.mp hi
      have hfollows' := hfollows h' (List.mem_of_getElem? hmem)
      by_cases hasked : reader = i
      · rw [if_pos hasked] at heq
        exact heq ▸ hfollows'.ask request
      · rw [if_neg hasked] at heq
        exact heq ▸ hfollows'
  | copy reader =>
      rcases List.mem_append.mp hh with hh | hh
      · exact hfollows h hh
      · exact hfollows h (List.mem_of_getElem? (Option.mem_toList.mp hh))

/-- After any actions every reader stands where its own deliveries have
brought it. Induction on the actions, for any readers to begin with. -/
theorem follows_handles (text : String) (actions : List Action) :
    ∀ h ∈ handles text actions, h.Follows text := by
  have hfirst : ∀ h ∈ [{ reader := { text } }], Handle.Follows text h := by
    intro h hh
    rw [List.mem_singleton.mp hh]
    exact .first text
  rw [handles]
  generalize [({ reader := { text } } : Handle)] = hs at hfirst ⊢
  induction actions generalizing hs with
  | nil => exact hfirst
  | cons action actions ih => exact ih _ (follows_act hfirst action)

/-- What a reader delivers, and what it goes on to deliver. Unlike `Follows`
it says nothing about the cursor and the flag, only about answers: those
that were given, and those to the next request. -/
structure Handle.Reads (text : String) (h : Handle) : Prop where
  /-- Its tokens are those of the text, and then the last one again and
  again. -/
  delivered : ∀ i d, h.delivered[i]? = some d →
    (tokenize text)[min i ((tokenize text).length - 1)]? = some d.token
  token : (tokenize text)[min h.delivered.length ((tokenize text).length - 1)]? =
    some h.reader.read.1
  /-- Its stream is over exactly if the stream has delivered the mark. -/
  exhausted : h.reader.next?.1 = none ↔ h.Stopped
  next : ¬h.Stopped → h.reader.next?.1 = some h.reader.read.1
  /-- The rest of a stream is what it yields when it is asked for one token
  after the other. -/
  drained : h.reader.drain =
    (h.reader.next?.1.toList ++ h.reader.next?.2.drain.1, h.reader.next?.2.drain.2)
  rest : h.reader.drain.1 = if h.Stopped then [] else
    (tokenize text).drop (min h.delivered.length ((tokenize text).length - 1))
  /-- The mark is the end of what is left and nowhere else in it. -/
  mark : ¬h.Stopped → ∃ front, (∀ t ∈ front, t.kind ≠ .endOfInput) ∧
    h.reader.drain.1 = front ++ [Token.endOfInput (byteLength text.toList)]
  afterwards : h.reader.drain.2.next?.1 = none

/-- Where a reader stands decides what it delivers. No induction: everything
is read off the invariant. -/
theorem Handle.Follows.reads {text : String} {h : Handle} (hh : h.Follows text) :
    h.Reads text := by
  have hstop : h.reader.cursor.stop = byteLength h.reader.text.toList := by
    rw [hh.text_eq]
    exact hh.stop
  have hexhausted : h.reader.next?.1 = none ↔ h.Stopped := by
    rw [← hh.ended]
    cases hended : h.reader.ended with
    | true => simp [next?_of_ended hended]
    | false => simp [next?_eq hended]
  refine
    { delivered := fun i d hd => by rw [getElem?_tokenize, hh.delivered i d hd]
      token := by rw [getElem?_tokenize, hh.read_token]
      exhausted := hexhausted
      next := fun hrunning => by rw [next?_eq (hh.ended_eq_false hrunning)]
      drained := drain_eq_next? hstop
      rest := ?_
      mark := fun hrunning => ⟨h.reader.cursor.tokens, h.reader.cursor.kind_ne_endOfInput, ?_⟩
      afterwards := ?_ }
  · split
    · next hstopped => rw [drain_of_ended (hh.ended.mpr hstopped)]
    · next hrunning =>
        -- The tokens behind those delivered, and the mark, which is never
        -- dropped.
        rw [drain_eq (hh.ended_eq_false hrunning) hstop, hh.left, hh.stop, tokenize,
          List.length_append, List.length_singleton, Nat.add_sub_cancel]
        rw [List.drop_append_of_le_length (Nat.min_le_right _ _)]
        rcases Nat.le_total h.delivered.length (Cursor.ofText text).tokens.length with hle | hle
        · rw [Nat.min_eq_left hle]
        · rw [Nat.min_eq_right hle, List.drop_eq_nil_of_le hle, List.drop_length]
  · rw [drain_eq (hh.ended_eq_false hrunning) hstop, hh.stop]
  · cases hended : h.reader.ended with
    | true => rw [drain_of_ended hended, next?_of_ended hended]
    | false =>
        rw [drain_eq hended hstop]
        exact congrArg Prod.fst (next?_of_ended rfl)

/-- Readers over one text are independent of each other. After any requests
to any readers and any copies of them, each reader has delivered the tokens
of the text in order, and behind the last one it delivers that one again;
only those tokens count that the reader itself has delivered, or that
another one had before it was copied. Its stream is over exactly if it has
delivered the mark as a stream, and what is left of a stream that is not
over ends with the mark. -/
theorem readers_deliver (text : String) (actions : List Action) :
    ∀ h ∈ handles text actions, h.Reads text :=
  fun h hh => (follows_handles text actions h hh).reads

/-- A reader that was asked for the mark is copied, and the copy for all
that is left. This is the mark again, and now the stream of the copy is
over. That of the other reader is not. -/
theorem readers_deliver_copied :
    ∃ original copy,
      handles "a" [.ask 0 .token, .ask 0 .token, .copy 0, .ask 1 .rest] = [original, copy] ∧
        original.reader.drain.1 = [Token.endOfInput 1] ∧ copy.reader.drain.1 = [] := by
  refine ⟨_, _, rfl, ?_, ?_⟩
  · have hreads := readers_deliver "a" [.ask 0 .token, .ask 0 .token, .copy 0, .ask 1 .rest]
      _ List.mem_cons_self
    rw [hreads.rest, if_neg (by decide +kernel)]
    decide +kernel
  · have hreads := readers_deliver "a" [.ask 0 .token, .ask 0 .token, .copy 0, .ask 1 .rest]
      _ (List.mem_cons_of_mem _ List.mem_cons_self)
    rw [hreads.rest, if_pos (by decide +kernel)]

end Reader

end DeskCalculator

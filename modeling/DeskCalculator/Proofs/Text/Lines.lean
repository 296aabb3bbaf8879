import DeskCalculator.Text.Blank
import DeskCalculator.Text.Bytes
import DeskCalculator.Text.Line
import Mathlib.Data.List.DropRight
import Mathlib.Data.List.TakeWhile

/-!
# `DeskCalculator.Proofs.Text.Lines`: lines of characters and lines of bytes

A text can be decoded and then cut into lines, or its bytes can be cut into
lines and each of these decoded. Both ways lead to the same lines, since
UTF-8 encodes the end mark as one byte and no other character with that byte
(`byteLines_encode`). If the bytes encode no text, there is a first line of
bytes that encodes none (`exists_undecodable`). Together they say what an
interactive run sees of an input that is read as a whole elsewhere.

* `cut_induction`: induction along the end marks of a list.
  `cutBehind_append` and `cutBehind_last` are what cutting does in its two
  cases.
* `decode?_eq_some_iff`: decoding, in terms of `encode`. The library's
  decoder is opened here and nowhere else.
* `filter_content_lines`: the lines that are not blank, trimmed, are the
  `entries` of the text. The two are different programs. One cuts behind the
  end marks and trims all of them, the other one splits at the end marks and
  trims carriage returns.

All of this is about rows of characters and bytes, and knows nothing of
calculators.
-/

set_option autoImplicit false

namespace DeskCalculator.Text

/-! ### Cutting

A list is cut behind its end marks, and what was cut can be put together
again. -/

section Cut

variable {α : Type} {isEnd : α → Bool}

/-- A list has no end mark, or it has a first one. `cutBehind` goes through
its list item by item, and so would the induction of lists. This one goes
piece by piece instead, and all facts about lines below are proved by it. -/
theorem cut_induction (isEnd : α → Bool) {motive : List α → Prop}
    (last : ∀ piece, (∀ item ∈ piece, isEnd item = false) → motive piece)
    (cons : ∀ piece mark rest, (∀ item ∈ piece, isEnd item = false) → isEnd mark = true →
      motive rest → motive (piece ++ mark :: rest)) (items : List α) : motive items := by
  -- The items before the next mark are put aside, in `piece`.
  have hfrom : ∀ piece, (∀ item ∈ piece, isEnd item = false) → motive (piece ++ items) := by
    induction items with
    | nil =>
        intro piece hpiece
        rw [List.append_nil]
        exact last piece hpiece
    | cons item items ih =>
        intro piece hpiece
        cases hitem : isEnd item with
        | true => exact cons piece item items hpiece hitem (ih [] (List.forall_mem_nil _))
        | false =>
            rw [List.append_cons]
            refine ih (piece ++ [item]) fun x hx => ?_
            rcases List.mem_append.mp hx with hx | hx
            · exact hpiece x hx
            · rw [List.mem_singleton.mp hx]
              exact hitem
  exact hfrom [] (List.forall_mem_nil _)

/-- A piece ends behind its first end mark. What follows is cut as a text of
its own. -/
theorem cutBehind_append {piece : List α} (h : ∀ item ∈ piece, isEnd item = false) {mark : α}
    (hmark : isEnd mark = true) (rest : List α) :
    cutBehind isEnd (piece ++ mark :: rest) = (piece ++ [mark]) :: cutBehind isEnd rest := by
  induction piece with
  | nil => exact if_pos hmark
  | cons item piece ih =>
      obtain ⟨hitem, hpiece⟩ := List.forall_mem_cons.mp h
      have hstep : cutBehind isEnd (item :: (piece ++ mark :: rest))
          = cutStep isEnd item ((piece ++ [mark]) :: cutBehind isEnd rest) :=
        congrArg (cutStep isEnd item) (ih hpiece)
      rw [List.cons_append, hstep]
      exact if_neg (by rw [hitem]; exact Bool.false_ne_true)

/-- What follows the last end mark is one piece, if there is anything. An
end mark at the end of a text is therefore not followed by an empty
piece. -/
theorem cutBehind_last {piece : List α} (h : ∀ item ∈ piece, isEnd item = false) :
    cutBehind isEnd piece = if piece.isEmpty then [] else [piece] := by
  induction piece with
  | nil => rfl
  | cons item piece ih =>
      obtain ⟨hitem, hpiece⟩ := List.forall_mem_cons.mp h
      have hstep : cutBehind isEnd (item :: piece)
          = cutStep isEnd item (if piece.isEmpty then [] else [piece]) :=
        congrArg (cutStep isEnd item) (ih hpiece)
      have hends : ¬isEnd item = true := by rw [hitem]; exact Bool.false_ne_true
      rw [hstep]
      cases piece with
      | nil => exact if_neg hends
      | cons next piece => exact if_neg hends

/-- The first pieces of a list, put together, are cut where they were. Only
the last piece of a list may lack its end mark, so the pieces do not run
together. An interactive run that ends early has seen such a beginning of
its input. -/
theorem cutBehind_flatten {before after : List (List α)} {items : List α}
    (h : cutBehind isEnd items = before ++ after) :
    cutBehind isEnd before.flatten = before := by
  induction items using cut_induction isEnd generalizing before with
  | last piece hpiece =>
      cases before with
      | nil => rfl
      | cons first before =>
          -- There is one piece at most.
          rw [cutBehind_last hpiece] at h
          split at h
          · cases h
          · next hne =>
              obtain ⟨rfl, hnil⟩ := List.cons.inj h
              obtain ⟨rfl, -⟩ := List.append_eq_nil_iff.mp hnil.symm
              rw [List.flatten_singleton, cutBehind_last hpiece, if_neg hne]
  | cons piece mark rest hpiece hmark ih =>
      cases before with
      | nil => rfl
      | cons first before =>
          rw [cutBehind_append hpiece hmark] at h
          obtain ⟨rfl, hrest⟩ := List.cons.inj h
          rw [List.flatten_cons, List.append_assoc, List.singleton_append,
            cutBehind_append hpiece hmark, ih hrest]

end Cut

/-! ### Bytes

In UTF-8 the byte of the end mark stands for the end mark only, so cutting
and decoding may change places. -/

/-- The bytes of a text, in the encoding that is decoded again when they are
read. -/
def encode (text : List Char) : List UInt8 := text.flatMap String.utf8EncodeChar

/-- The bytes of two texts, one behind the other. Each character is encoded
by itself. -/
theorem encode_append (a b : List Char) : encode (a ++ b) = encode a ++ encode b :=
  List.flatMap_append

/-- The bytes of texts that are put together. For the lines of an input,
which are cut as bytes and decoded one by one. -/
theorem encode_flatten (texts : List (List Char)) :
    encode texts.flatten = (texts.map encode).flatten := by
  induction texts with
  | nil => rfl
  | cons text texts ih =>
      rw [List.flatten_cons, encode_append, ih, List.map_cons, List.flatten_cons]

/-- Bytes encode a text just where they are its bytes. So there is one text
at most, and whatever was decoded can be replaced by the bytes of a text. -/
theorem decode?_eq_some_iff {bytes : List UInt8} {text : List Char} :
    decode? bytes = some text ↔ bytes = encode text := by
  have harray : ByteArray.mk bytes.toArray = bytes.toByteArray :=
    ByteArray.ext (Array.toList_inj.mp (by simp))
  rw [decode?, harray, String.fromUTF8?]
  constructor
  · intro h
    split at h
    · next hvalid =>
        obtain rfl := Option.some.inj h
        have hbytes : (encode (String.fromUTF8 bytes.toByteArray hvalid).toList).toByteArray
            = bytes.toByteArray := String.utf8Encode_toList
        have hlists := congrArg (fun b => b.data.toList) hbytes
        simp only [List.toList_data_toByteArray] at hlists
        exact hlists.symm
    · cases h
  · rintro rfl
    have hvalid : (encode text).toByteArray.IsValidUTF8 := ⟨text, rfl⟩
    have htext : String.fromUTF8 (encode text).toByteArray hvalid = String.ofList text :=
      String.toByteArray_inj.mp String.toByteArray_ofList.symm
    rw [dif_pos hvalid, htext, Option.map_some, String.toList_ofList]

/-- A text is decoded from its bytes. So a statement on all texts is one on
all bytes that can be decoded. -/
@[simp] theorem decode?_encode (text : List Char) : decode? (encode text) = some text :=
  decode?_eq_some_iff.mpr rfl

/-- A byte array holds the bytes that it was made of. -/
theorem toList_toByteArray (bytes : List UInt8) : bytes.toByteArray.toList = bytes := by
  -- The library reads an array out with a loop. What it has read stands in
  -- reverse before the rest.
  have hloop : ∀ (b : ByteArray) (i : Nat) (read : List UInt8),
      ByteArray.toList.loop b i read = read.reverse ++ b.data.toList.drop i := by
    intro b i read
    fun_induction ByteArray.toList.loop b i read with
    | case1 i read hlt ih =>
        have hlength : i < b.data.toList.length := by simpa using hlt
        rw [ih, List.drop_eq_getElem_cons hlength]
        simp [ByteArray.get!, hlt]
    | case2 i read hge =>
        rw [List.drop_eq_nil_of_le (by simpa using Nat.le_of_not_lt hge), List.append_nil]
  rw [ByteArray.toList, hloop, List.toList_data_toByteArray]
  rfl

/-- No byte of a character but the end mark is that of the end mark: it is
the code of an ASCII character, or its highest bit is set. -/
theorem not_isEnd_of_mem {c : Char} (h : c ≠ '\n') :
    ∀ b ∈ String.utf8EncodeChar c, decide (b = 0x0A) = false := by
  intro b hb
  refine decide_eq_false ?_
  rintro rfl
  have hval : c.val.toNat = c.toNat := rfl
  have hcode : c.toNat ≠ 0x0A := fun hcode => h (Char.ext (UInt32.toNat_inj.mp hcode))
  unfold String.utf8EncodeChar at hb
  simp only [hval] at hb
  split at hb
  · simp [← UInt8.toNat_inj] at hb
    omega
  · -- All bytes of a longer code are at least 0x80.
    split at hb
    · simp [← UInt8.toNat_inj] at hb
      omega
    · split at hb
      · simp [← UInt8.toNat_inj] at hb
        omega
      · simp [← UInt8.toNat_inj] at hb
        omega

/-- The lines of the bytes of a text are the bytes of its lines. Induction
along the end marks of the text: the bytes of a piece have no end mark, and
that of the mark is one. -/
theorem byteLines_encode (text : List Char) :
    byteLines (encode text) = (lines text).map encode := by
  have hmarkless : ∀ {piece : List Char}, (∀ c ∈ piece, decide (c = '\n') = false) →
      ∀ b ∈ encode piece, decide (b = 0x0A) = false := by
    intro piece hpiece b hb
    obtain ⟨c, hc, hb⟩ := List.mem_flatMap.mp hb
    exact not_isEnd_of_mem (of_decide_eq_false (hpiece c hc)) b hb
  induction text using cut_induction (· = '\n') with
  | last piece hpiece =>
      rw [byteLines, lines, cutBehind_last (hmarkless hpiece), cutBehind_last hpiece]
      cases piece with
      | nil => rfl
      | cons c piece =>
          have hne : (encode (c :: piece)).isEmpty = false := by
            simp [encode, String.utf8EncodeChar_ne_nil]
          rw [hne]
          rfl
  | cons piece mark rest hpiece hmark ih =>
      obtain rfl := of_decide_eq_true hmark
      have hbytes : encode (piece ++ '\n' :: rest) = encode piece ++ 0x0A :: encode rest := by
        rw [encode_append]
        rfl
      have hlines : lines (piece ++ '\n' :: rest) = (piece ++ ['\n']) :: lines rest :=
        cutBehind_append hpiece hmark rest
      rw [hbytes, byteLines, cutBehind_append (hmarkless hpiece) rfl, ← byteLines, ih, hlines,
        List.map_cons, encode_append]
      rfl

/-- All pieces encode texts, or there is a first one that encodes none. An
interactive run ends at that one. -/
theorem decodable_cases (pieces : List (List UInt8)) :
    (∃ texts : List (List Char), pieces = texts.map encode) ∨
      ∃ (texts : List (List Char)) (bad : List UInt8) (after : List (List UInt8)),
        pieces = texts.map encode ++ bad :: after ∧ decode? bad = none := by
  induction pieces with
  | nil => exact .inl ⟨[], rfl⟩
  | cons piece pieces ih =>
      cases hpiece : decode? piece with
      | none => exact .inr ⟨[], piece, pieces, rfl, hpiece⟩
      | some text =>
          obtain rfl := decode?_eq_some_iff.mp hpiece
          rcases ih with ⟨texts, rfl⟩ | ⟨texts, bad, after, rfl, hbad⟩
          · exact .inl ⟨text :: texts, rfl⟩
          · exact .inr ⟨text :: texts, bad, after, rfl, hbad⟩

/-- Bytes that encode no text have a first line that encodes none. Cutting
cannot hide what is wrong: an end mark is never a byte of another character,
so no character is cut into two. -/
theorem exists_undecodable {bytes : List UInt8} (h : decode? bytes = none) :
    ∃ (texts : List (List Char)) (bad : List UInt8) (after : List (List UInt8)),
      byteLines bytes = texts.map encode ++ bad :: after ∧ decode? bad = none := by
  refine (decodable_cases (byteLines bytes)).resolve_left ?_
  rintro ⟨texts, htexts⟩
  -- Otherwise the texts of all lines, put together, would be the text.
  have hbytes : bytes = encode texts.flatten := by
    rw [encode_flatten, ← htexts]
    exact (flatten_cutBehind _ bytes).symm
  rw [hbytes, decode?_encode] at h
  cases h

/-! ### What is evaluated

A line as it was typed in, and the same line of a script: both are without
their end marks, and blank together. -/

/-- Carriage returns are dropped from the right. Mathlib's name for this
brings its lemmas. -/
theorem dropReturns_eq (piece : List Char) : dropReturns piece = piece.rdropWhile (· = '\r') := rfl

/-- No character of the piece is the end mark. From the condition on each
character to the list of them. -/
theorem not_mem_of_markless {piece : List Char} (h : ∀ c ∈ piece, decide (c = '\n') = false) :
    '\n' ∉ piece :=
  fun hmem => of_decide_eq_false (h _ hmem) rfl

/-- No piece between end marks has one in it. What is evaluated is therefore
one line, whatever else it consists of, and messages that quote it are one
line, too. -/
theorem not_mem_of_mem_splitOn (text : List Char) : ∀ piece ∈ text.splitOn '\n', '\n' ∉ piece := by
  induction text using cut_induction (· = '\n') with
  | last piece hpiece =>
      have hpiece := not_mem_of_markless hpiece
      rw [List.splitOn_eq_singleton hpiece]
      exact List.forall_mem_singleton.mpr hpiece
  | cons piece mark rest hpiece hmark ih =>
      have hpiece := not_mem_of_markless hpiece
      obtain rfl := of_decide_eq_true hmark
      rw [List.splitOn_append_cons_self_of_not_mem hpiece]
      exact List.forall_mem_cons.mpr ⟨hpiece, ih⟩

/-- A line that is evaluated has no end mark in it, since the text was cut
at all of them. -/
theorem not_mem_of_mem_entries {text line : List Char} (h : line ∈ entries text) :
    '\n' ∉ line := by
  obtain ⟨piece, hpiece, rfl⟩ := List.mem_map.mp (List.mem_of_mem_filter h)
  rw [dropReturns_eq]
  exact fun hmem => not_mem_of_mem_splitOn text piece hpiece
    ((List.rdropWhile_prefix _ piece).subset hmem)

/-- The last character of a line belongs to its content unless it is an end
mark. -/
theorem content_concat (line : List Char) (c : Char) :
    content (line ++ [c]) = if isLineEnd c then content line else line ++ [c] :=
  List.rdropWhile_concat isLineEnd line c

/-- Without its own end mark, the content of a line ends before the carriage
returns at its end. -/
theorem content_eq_dropReturns {piece : List Char} (h : '\n' ∉ piece) :
    content piece = dropReturns piece := by
  rw [dropReturns_eq]
  induction piece using List.reverseRecOn with
  | nil => rfl
  | append_singleton piece c ih =>
      rw [List.mem_append, List.mem_singleton, not_or] at h
      have hpiece := ih h.1
      have hc : isLineEnd c = decide (c = '\r') := by
        simp [isLineEnd, Ne.symm h.2]
      rw [content_concat, List.rdropWhile_concat, hpiece, hc]

/-- A line ends with characters that are white space, so it is blank if its
content is. -/
theorem isBlank_content (line : List Char) : isBlank (content line) = isBlank line := by
  induction line using List.reverseRecOn with
  | nil => rfl
  | append_singleton line c ih =>
      rw [content_concat]
      split
      · next hend =>
          have hspace : isWhiteSpace c = true := by
            rw [isLineEnd, Bool.or_eq_true, decide_eq_true_eq, decide_eq_true_eq] at hend
            rcases hend with rfl | rfl <;> decide
          rw [ih, isBlank, isBlank, List.all_append, List.all_cons, hspace]
          simp
      · rfl

/-- The lines that are not blank have the contents that are evaluated. This
is where the two ways of finding the texts of a script meet: the left side
is what an interactive run does line by line, the right side what a script
does at once. -/
theorem filter_content_lines (text : List Char) :
    ((lines text).map content).filter (fun line => !isBlank line) = entries text := by
  induction text using cut_induction (· = '\n') with
  | last piece hpiece =>
      have hpiece' := not_mem_of_markless hpiece
      rw [entries, List.splitOn_eq_singleton hpiece', lines,
        cutBehind_last hpiece, List.map_singleton, ← content_eq_dropReturns hpiece']
      -- Behind the last end mark there may be nothing, which is no line but
      -- is blank.
      cases piece with
      | nil => rfl
      | cons c piece => rfl
  | cons piece mark rest hpiece hmark ih =>
      obtain rfl := of_decide_eq_true hmark
      have hpiece' := not_mem_of_markless hpiece
      have hlines : lines (piece ++ '\n' :: rest) = (piece ++ ['\n']) :: lines rest :=
        cutBehind_append hpiece hmark rest
      have hsplit : (piece ++ '\n' :: rest).splitOn '\n' = piece :: rest.splitOn '\n' :=
        List.splitOn_append_cons_self_of_not_mem hpiece' rest
      have hcontent : content (piece ++ ['\n']) = dropReturns piece := by
        rw [content_concat, if_pos (by decide), content_eq_dropReturns hpiece']
      rw [entries, hlines, hsplit, List.map_cons, List.map_cons, hcontent, List.filter_cons,
        List.filter_cons, ih]
      rfl

end DeskCalculator.Text

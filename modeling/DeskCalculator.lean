import DeskCalculator.Grammar
import DeskCalculator.Lexeme.Language
import DeskCalculator.Main
import DeskCalculator.Descent
import DeskCalculator.Proofs.Calculator.Batch
import DeskCalculator.Proofs.CommandLine.Conversation
import DeskCalculator.Proofs.CommandLine.Fresh
import DeskCalculator.Proofs.CommandLine.Listing
import DeskCalculator.Proofs.Run.FirstOffence
import DeskCalculator.Proofs.Run.Layout
import DeskCalculator.Proofs.Run.Repair
import DeskCalculator.Proofs.Run.Frame
import DeskCalculator.Proofs.Run.Described
import DeskCalculator.Proofs.Run.Extension
import DeskCalculator.Proofs.Run.Kept
import DeskCalculator.Proofs.Run.Stray
import DeskCalculator.Proofs.Run.Unclosed
import DeskCalculator.Proofs.Tokens.Numeral
import DeskCalculator.Proofs.Descent.Position
import DeskCalculator.Proofs.Descent.Rules
import DeskCalculator.Proofs.Descent.Termination
import DeskCalculator.Proofs.Environment.Settings
import DeskCalculator.Proofs.Tokens.Readers
import DeskCalculator.Proofs.CommandLine.Account
import DeskCalculator.Proofs.Double.Shortest
import DeskCalculator.Proofs.Double.Positional

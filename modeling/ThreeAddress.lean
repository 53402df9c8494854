import ThreeAddress.Ascending
import ThreeAddress.Collection
import ThreeAddress.CommandLine.Basic
import ThreeAddress.CommandLine.Directory
import ThreeAddress.CommandLine.Options
import ThreeAddress.Fault
import ThreeAddress.Grammar.Augmented
import ThreeAddress.Grammar.Basic
import ThreeAddress.Grammar.Description
import ThreeAddress.Grammar.First
import ThreeAddress.Instruction
import ThreeAddress.Item.Basic
import ThreeAddress.Item.Closure
import ThreeAddress.Language
import ThreeAddress.Main
import ThreeAddress.Proofs.Collection
import ThreeAddress.Proofs.Collection.Search
import ThreeAddress.Proofs.Collection.Vocabulary
import ThreeAddress.Proofs.FixedPoint
import ThreeAddress.Proofs.Grammar.Augmentations
import ThreeAddress.Proofs.Grammar.Augmented
import ThreeAddress.Proofs.Grammar.Begins
import ThreeAddress.Proofs.Grammar.Derivation
import ThreeAddress.Proofs.Grammar.Description
import ThreeAddress.Proofs.Grammar.First
import ThreeAddress.Proofs.Grammar.Rounds
import ThreeAddress.Proofs.Grammar.Tree
import ThreeAddress.Proofs.Grammar.WellFormed
import ThreeAddress.Proofs.Item.Closure
import ThreeAddress.Proofs.Item.Goto
import ThreeAddress.Proofs.Item.Outline
import ThreeAddress.Proofs.Item.Valid
import ThreeAddress.Proofs.Item.Worklist
import ThreeAddress.Proofs.Language.Atomic
import ThreeAddress.Proofs.Language.Bound
import ThreeAddress.Proofs.Language.Breaks
import ThreeAddress.Proofs.Language.Compiled
import ThreeAddress.Proofs.Language.DanglingElse
import ThreeAddress.Proofs.Language.Declarations
import ThreeAddress.Proofs.Language.Defer
import ThreeAddress.Proofs.Language.Effects
import ThreeAddress.Proofs.Language.Emission
import ThreeAddress.Proofs.Language.Evaluation
import ThreeAddress.Proofs.Language.Inversion
import ThreeAddress.Proofs.Language.Labels
import ThreeAddress.Proofs.Language.Layout
import ThreeAddress.Proofs.Language.Linear
import ThreeAddress.Proofs.Language.Loops
import ThreeAddress.Proofs.Language.Plain
import ThreeAddress.Proofs.Language.Positions
import ThreeAddress.Proofs.Language.Preservation
import ThreeAddress.Proofs.Language.Reads
import ThreeAddress.Proofs.Language.Resolved
import ThreeAddress.Proofs.Language.Rivals
import ThreeAddress.Proofs.Language.Roles
import ThreeAddress.Proofs.Language.Scopes
import ThreeAddress.Proofs.Language.Sizes
import ThreeAddress.Proofs.Language.Tail
import ThreeAddress.Proofs.Language.Typed
import ThreeAddress.Proofs.Language.Whole
import ThreeAddress.Proofs.Meaning.Emit
import ThreeAddress.Proofs.Meaning.Jumps
import ThreeAddress.Proofs.Meaning.Linear
import ThreeAddress.Proofs.Meaning.Machine
import ThreeAddress.Proofs.Meaning.Numbering
import ThreeAddress.Proofs.Meaning.Program
import ThreeAddress.Proofs.Meaning.Simulation
import ThreeAddress.Proofs.Meaning.Straight
import ThreeAddress.Proofs.Reduction
import ThreeAddress.Proofs.Run.Abreast
import ThreeAddress.Proofs.Run.Advance
import ThreeAddress.Proofs.Run.Climb
import ThreeAddress.Proofs.Run.Complete
import ThreeAddress.Proofs.Run.Direct
import ThreeAddress.Proofs.Run.Halting
import ThreeAddress.Proofs.Run.Prompt
import ThreeAddress.Proofs.Run.Settle
import ThreeAddress.Proofs.Run.Sound
import ThreeAddress.Proofs.Run.Step
import ThreeAddress.Proofs.Run.Stop
import ThreeAddress.Proofs.Run.Unplaced
import ThreeAddress.Proofs.Run.Upright
import ThreeAddress.Proofs.Run.Walk
import ThreeAddress.Proofs.Run.Worth
import ThreeAddress.Proofs.Stack
import ThreeAddress.Proofs.SymbolTable
import ThreeAddress.Proofs.Table
import ThreeAddress.Proofs.Table.Confined
import ThreeAddress.Proofs.Table.Conflicts
import ThreeAddress.Proofs.Text.Position
import ThreeAddress.Proofs.Token
import ThreeAddress.Proofs.Token.Layout
import ThreeAddress.Proofs.Token.Lexeme
import ThreeAddress.Proofs.Token.Tiling
import ThreeAddress.Proofs.Trace
import ThreeAddress.Report
import ThreeAddress.Run
import ThreeAddress.SymbolTable
import ThreeAddress.Table.Action
import ThreeAddress.Table.Basic
import ThreeAddress.Table.Conflict
import ThreeAddress.Text.Alphabetic
import ThreeAddress.Text.Blank
import ThreeAddress.Text.Numeric
import ThreeAddress.Text.Position
import ThreeAddress.Text.Quoted
import ThreeAddress.Text.Ranges
import ThreeAddress.Text.Unprintable
import ThreeAddress.Text.Word
import ThreeAddress.Token.Basic
import ThreeAddress.Token.Scan
import ThreeAddress.Translator.Basic
import ThreeAddress.Translator.Event
import ThreeAddress.Translator.Semantic

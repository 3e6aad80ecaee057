import Metamath.Main
import Metamath.Proofs.Database.Declaration
import Metamath.Proofs.Database.WellFormed
import Metamath.Proofs.Database.History
import Metamath.Proofs.Database.Coherence
import Metamath.Proofs.Database.Stability
import Metamath.Proofs.Statement.Run
import Metamath.Proofs.Statement.Sentence
import Metamath.Proofs.Replay.Basic
import Metamath.Proofs.Replay.Tree
import Metamath.Proofs.Replay.Expansion
import Metamath.Proofs.Letters
import Metamath.Proofs.Replay.Compression
import Metamath.Proofs.Replay.Closure
import Metamath.Proofs.Replay.Abridgement
import Metamath.Proofs.Derivation.Basic
import Metamath.Proofs.Derivation.Soundness
import Metamath.Proofs.Statement.Language
import Metamath.Proofs.Replay.Persistence
import Metamath.Proofs.Token.InPlace
import Metamath.Proofs.Token.Requests
import Metamath.Proofs.Layout
import Metamath.Proofs.Statement.Halting
import Metamath.Proofs.Engine.Reading
import Metamath.Proofs.Engine.Grading
import Metamath.Proofs.Pool
import Metamath.Proofs.Engine.Scheduling
import Metamath.Proofs.Files.Path
import Metamath.Proofs.Engine.Snippets
import Metamath.Proofs.Unification.Complete
import Metamath.Proofs.Unification.Composition
import Metamath.Proofs.Database.Mandatory
import Metamath.Proofs.Token.Words
import Metamath.Proofs.Token.Lexical
import Metamath.Proofs.Token.Positions
import Metamath.Proofs.Replay.Unknown
import Metamath.Proofs.Statement.Tally
import Metamath.Proofs.Statement.Blocks
import Metamath.Proofs.Engine.Ignored
import Metamath.Proofs.Text.Glyphs
import Metamath.Proofs.Report.Underline
import Metamath.Proofs.Replay.Items
import Metamath.Proofs.Statement.References

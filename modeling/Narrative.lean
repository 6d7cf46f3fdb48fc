import Narrative.Main
import Narrative.Proofs.Legible
import Narrative.Proofs.Reading
import Narrative.Proofs.Inverse
import Narrative.Proofs.Nesting
import Narrative.Proofs.Language
import Narrative.Proofs.Coverage
import Narrative.Proofs.Canonical
import Narrative.Proofs.Respelling
import Narrative.Proofs.Rollback
import Narrative.Proofs.Rounds
import Narrative.Proofs.Decks
import Narrative.Proofs.Places
import Narrative.Proofs.Showings
import Narrative.Proofs.Visits
import Narrative.Proofs.Halting
import Narrative.Proofs.Display
import Narrative.Proofs.Expectation
import Narrative.Proofs.Bounds
import Narrative.Proofs.Safety
import Narrative.Proofs.Writing
import Narrative.Proofs.Saving
import Narrative.Proofs.Choices
import Narrative.Proofs.Replay
import Narrative.Proofs.Changes
import Narrative.Proofs.Arrangement
import Narrative.Proofs.Isolation
import Narrative.Proofs.Deepest
import Narrative.Proofs.Joining
import Narrative.Proofs.Dashes
import Narrative.Proofs.Conditions
import Narrative.Proofs.Limit
import Narrative.Proofs.Repetition
import Narrative.Proofs.Lifecycle
import Narrative.Proofs.Localizing
import Narrative.Proofs.Renderings
import Narrative.Proofs.Resuming
import Narrative.Proofs.Priority
import Narrative.Proofs.Faults
import Narrative.Proofs.Splicing
import Narrative.Proofs.Checking
import Narrative.Proofs.Pruning
import Narrative.Proofs.Evaluation
import Narrative.Proofs.Connectives
import Narrative.Proofs.Literals
import Narrative.Proofs.Operands
import Narrative.Proofs.Coherence
import Narrative.Proofs.Integers
import Narrative.Proofs.Markers
import Narrative.Proofs.Edits
import Narrative.Text.LineIndex
import Narrative.Proofs.Effects
import Narrative.Proofs.Succession
import Narrative.Proofs.Forgetting
import Narrative.Proofs.Lines
import Narrative.Proofs.Turns
import Narrative.Proofs.Cuts
import Narrative.Proofs.Tokens
import Narrative.Proofs.Outlines
import Narrative.Proofs.Machine

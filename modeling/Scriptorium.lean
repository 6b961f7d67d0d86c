import Scriptorium.Command.Disk
import Scriptorium.Main
import Scriptorium.Proofs.Runs
import Scriptorium.Proofs.Steps
import Scriptorium.Text.Segment
import Scriptorium.Proofs.Balance
import Scriptorium.Proofs.Markup
import Scriptorium.Proofs.Nesting
import Scriptorium.Proofs.InlineTree
import Scriptorium.Proofs.NoteNumbers
import Scriptorium.Proofs.Footprint
import Scriptorium.Proofs.WaitingLabels
import Scriptorium.Proofs.PlacedLabels
import Scriptorium.Proofs.KeptPages
import Scriptorium.Proofs.WordLinks
import Scriptorium.Proofs.NoteText
import Scriptorium.Proofs.GatheredNotes
import Scriptorium.Proofs.ReplayStack
import Scriptorium.Proofs.Inlining
import Scriptorium.Proofs.SharedEdition
import Scriptorium.Proofs.WholeEditions
import Scriptorium.Proofs.Interleaving
import Scriptorium.Proofs.Restart
import Scriptorium.Proofs.FinishedPage
import Scriptorium.Proofs.CarriedText
import Scriptorium.Proofs.InsertedBlock
import Scriptorium.Proofs.RuleOrder
import Scriptorium.Proofs.LabelsLeftOut
import Scriptorium.Proofs.Respacing
import Scriptorium.Proofs.GrowingOutput
import Scriptorium.Proofs.ChapterAnchors
import Scriptorium.Proofs.Histories
import Scriptorium.Proofs.FailedEvents
import Scriptorium.Proofs.CollectedNotes
import Scriptorium.Proofs.Headwords
import Scriptorium.Proofs.BuiltSettings
import Scriptorium.Proofs.AsideKeys
import Scriptorium.Proofs.JsonText
import Scriptorium.Proofs.ReadingData
import Scriptorium.Proofs.DocumentFormat
import Scriptorium.Proofs.TomlText
import Scriptorium.Proofs.TomlFile
import Scriptorium.Proofs.PlanFile
import Scriptorium.Proofs.SavedPlans

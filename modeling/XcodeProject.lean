import XcodeProject.CommandLine.Invocation
import XcodeProject.CommandLine.Log
import XcodeProject.CommandLine.Output
import XcodeProject.CommandLine.Run
import XcodeProject.Dict
import XcodeProject.Document.Labels
import XcodeProject.Document.Layout
import XcodeProject.Event
import XcodeProject.FileSystem
import XcodeProject.FileType
import XcodeProject.Hash.Blake3
import XcodeProject.Kind
import XcodeProject.Main
import XcodeProject.Object
import XcodeProject.ObjectId
import XcodeProject.Path
import XcodeProject.Project.Basic
import XcodeProject.Project.Edit
import XcodeProject.Project.Target
import XcodeProject.PropertyList.Fault
import XcodeProject.PropertyList.Layout
import XcodeProject.PropertyList.Quoting
import XcodeProject.PropertyList.Reader
import XcodeProject.PropertyList.Value
import XcodeProject.Registration.Registrar
import XcodeProject.Registration.Report
import XcodeProject.Text.Basic
import XcodeProject.Text.ExtendingMark
import XcodeProject.Text.Json
import XcodeProject.Text.Unprintable
import XcodeProject.Proofs.PropertyList.Grammar
import XcodeProject.Proofs.PropertyList.ReaderComplete
import XcodeProject.Proofs.SortedDict
import XcodeProject.Proofs.PropertyList.CanonicalValues
import XcodeProject.Proofs.PropertyList.WrittenText
import XcodeProject.Proofs.Document.Sections
import XcodeProject.Proofs.Document.LabelMeaning
import XcodeProject.Proofs.Document.RoundTrip
import XcodeProject.Proofs.Document.TableLayout
import XcodeProject.Proofs.Project.Growth
import XcodeProject.Proofs.Project.Additions
import XcodeProject.Proofs.Project.Extension
import XcodeProject.Proofs.Project.Reload
import XcodeProject.Proofs.Project.GroupTree
import XcodeProject.Proofs.Registration.Uncached
import XcodeProject.Proofs.Registration.PathWalk
import XcodeProject.Proofs.Registration.Idempotence
import XcodeProject.Proofs.Registration.Operations
import XcodeProject.Proofs.PropertyList.Spelling
import XcodeProject.Proofs.Registration.LabelsKept
import XcodeProject.Proofs.Registration.LinesInserted
import XcodeProject.Proofs.PropertyList.ReaderExact
import XcodeProject.Proofs.Project.Insertions
import XcodeProject.Proofs.Project.EditRecords
import XcodeProject.Proofs.PropertyList.ValueRoundTrip
import XcodeProject.Proofs.Registration.Ownership
import XcodeProject.Proofs.Registration.Attachment
import XcodeProject.Proofs.Project.NewIds
import XcodeProject.Proofs.Registration.Accounts
import XcodeProject.Proofs.Registration.NeverRefused
import XcodeProject.Proofs.FileSystem.Replacement
import XcodeProject.Proofs.CommandLine.DryRunFlag
import XcodeProject.Proofs.CommandLine.AllOrNothing
import XcodeProject.Proofs.Registration.Plan
import XcodeProject.Proofs.Registration.OrderIndependence
import XcodeProject.Proofs.Project.AttachedOnce
import XcodeProject.Proofs.Project.RefusedEdits
import XcodeProject.Proofs.Registration.ExactOutcome
import XcodeProject.Proofs.PropertyList.Completion
import XcodeProject.Proofs.PropertyList.ErrorPosition
import XcodeProject.Proofs.Path.NormalForm
import XcodeProject.Proofs.ObjectId.SeedBytes
import XcodeProject.Proofs.ObjectId.FreshSearch

import AccessStore.Main
import AccessStore.Proofs.Effect
import AccessStore.Proofs.Statement
import AccessStore.Proofs.Records
import AccessStore.Proofs.Calls
import AccessStore.Proofs.FailedCalls
import AccessStore.Proofs.Underway
import AccessStore.Proofs.Interleaving
import AccessStore.Proofs.Touches
import AccessStore.Proofs.Overwriting
import AccessStore.Proofs.SeedingOnce
import AccessStore.Proofs.ReadBack
import AccessStore.Proofs.Connections
import AccessStore.Proofs.Edits
import AccessStore.Proofs.Additions
import AccessStore.Proofs.Seeding
import AccessStore.Proofs.Starting
import AccessStore.Proofs.WellFormed
import AccessStore.Proofs.OctetOrder
import AccessStore.Proofs.Ledger
import AccessStore.Proofs.Races
import AccessStore.Proofs.Winners
import AccessStore.Proofs.VersionText
import AccessStore.Proofs.Lossless
import AccessStore.Proofs.UserMappings
import AccessStore.Proofs.ConcurrentRegistration
import AccessStore.Proofs.Frames
import AccessStore.Proofs.Sites
import AccessStore.Proofs.Footprints
import AccessStore.Proofs.UserCalls
import AccessStore.Proofs.Steadiness
import AccessStore.Proofs.Independence
import AccessStore.Proofs.Commits
import AccessStore.Proofs.WriteCounts
import AccessStore.Proofs.RecordUpdates
import AccessStore.Proofs.AllOrNothing
import AccessStore.Proofs.Members
import AccessStore.Proofs.Settings
import AccessStore.Proofs.StoreOpening
import AccessStore.Proofs.BlankIdentities
import AccessStore.Proofs.Listings
import AccessStore.Proofs.Grammar
import AccessStore.Proofs.MemberOrder
import AccessStore.Proofs.Rearranging
import AccessStore.Proofs.Documents
import AccessStore.Proofs.FieldValues
import AccessStore.Proofs.VersionGrammar
import AccessStore.Proofs.SettingsDocuments
import AccessStore.Proofs.LoggingSettled
import AccessStore.Proofs.Admission
import AccessStore.Proofs.Migration

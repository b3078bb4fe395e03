import GraphIngest.Main
import GraphIngest.Session.Step
import GraphIngest.Proofs.Store.Lookup
import GraphIngest.Proofs.Convert.Batching
import GraphIngest.Proofs.Convert.FlushChoice
import GraphIngest.Proofs.Convert.Progress
import GraphIngest.Proofs.Convert.MergeLock
import GraphIngest.Proofs.Convert.Modes
import GraphIngest.Proofs.Convert.StateMachine
import GraphIngest.Proofs.Convert.Isolation
import GraphIngest.Proofs.Convert.RunConfluence
import GraphIngest.Proofs.Convert.Retry
import GraphIngest.Proofs.Convert.Sealing
import GraphIngest.Proofs.Rules.Joining
import GraphIngest.Proofs.Convert.BufferContents
import GraphIngest.Proofs.Source.Paging

import ModuleLoader.Config.Reader
import ModuleLoader.Loader.Load
import ModuleLoader.Loader.Paced
import ModuleLoader.Proofs.BlobHistory
import ModuleLoader.Proofs.Compile.Interface
import ModuleLoader.Proofs.Graph.EagerSearch
import ModuleLoader.Proofs.Graph.Reports
import ModuleLoader.Proofs.Graph.Representation
import ModuleLoader.Proofs.Imports.CommentFree
import ModuleLoader.Proofs.Imports.NoneMissed
import ModuleLoader.Proofs.Imports.TreeScan
import ModuleLoader.Proofs.Loader.ArrivalOrder
import ModuleLoader.Proofs.Loader.Binding
import ModuleLoader.Proofs.Loader.Circularity
import ModuleLoader.Proofs.Loader.Closedness
import ModuleLoader.Proofs.Loader.Coherence
import ModuleLoader.Proofs.Loader.Concurrency
import ModuleLoader.Proofs.Loader.Consumption
import ModuleLoader.Proofs.Loader.EntryLast
import ModuleLoader.Proofs.Loader.Evaluation
import ModuleLoader.Proofs.Loader.Failures
import ModuleLoader.Proofs.Loader.Finality
import ModuleLoader.Proofs.Loader.GivenOrder
import ModuleLoader.Proofs.Loader.HiddenFailures
import ModuleLoader.Proofs.Loader.History
import ModuleLoader.Proofs.Loader.ImportClosure
import ModuleLoader.Proofs.Loader.ProbeReuse
import ModuleLoader.Proofs.Loader.Probing
import ModuleLoader.Proofs.Site.Fallback
import ModuleLoader.Site.Network
import ModuleLoader.Site.Serve
import ModuleLoader.Proofs.Compile.OnlySpecifiers
import ModuleLoader.Proofs.Site.Answers
import ModuleLoader.Proofs.Config.Objects
import ModuleLoader.Proofs.Syntax.ExportPlaces
import ModuleLoader.Proofs.Config.RoundTrip

import JCoz.Basic
import JCoz.ExperimentLength
import JCoz.LineTable
import JCoz.Speedup
import JCoz.State
import JCoz.Agent
import JCoz.Handler
import JCoz.Callbacks
import JCoz.System
import JCoz.Writes
import JCoz.Ledger
import JCoz.HitCount
import JCoz.Registry
import JCoz.Experiments
import JCoz.Spinlocks
import JCoz.Scope
import JCoz.Signature
import JCoz.FrameOrder
import JCoz.Sleep
import JCoz.Progress
import JCoz.Shutdown
import JCoz.ClassPrepare
import JCoz.Candidates
import JCoz.Options
import JCoz.CreateLock

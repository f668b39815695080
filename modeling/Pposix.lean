import Pposix.Calls.Leak
import Pposix.Calls.Lengths
import Pposix.Calls.Outcome
import Pposix.Calls.Scopes
import Pposix.Calls.Times
import Pposix.Config.Buffer
import Pposix.Config.Outcomes
import Pposix.Files.Streams
import Pposix.Lnx.Reports
import Pposix.Log.Logger
import Pposix.Ownership.Assign
import Pposix.Ownership.File
import Pposix.Ownership.Inert
import Pposix.Ownership.Mmap
import Pposix.Rt.Notices
import Pposix.Rt.Order
import Pposix.Rt.Routes
import Pposix.Sockets.Lifetimes
import Pposix.Views.Conversions
import Pposix.Base.Refs
import Pposix.Lnx.Instances
import Pposix.Lnx.Simulation

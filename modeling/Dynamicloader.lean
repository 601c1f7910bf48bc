import Dynamicloader.Common.Layers
import Dynamicloader.Bridge.Model
import Dynamicloader.Bridge.Handle
import Dynamicloader.Bridge.Isolation
import Dynamicloader.Common.Decimal
import Dynamicloader.Common.Memory
import Dynamicloader.Xloaderd.Model
import Dynamicloader.Xloaderd.Execute
import Dynamicloader.Common.Process
import Dynamicloader.Xloader.Model
import Dynamicloader.Xloaderd.Serve
import Dynamicloader.Xloader.Reply
import Dynamicloader.Session.RoundTrip
import Dynamicloader.Session.Model
import Dynamicloader.Session.Invariant
import Dynamicloader.Session.Phases
import Dynamicloader.Session.Client
import Dynamicloader.Session.Transaction
import Dynamicloader.Common.Machine
import Dynamicloader.Common.Store
import Dynamicloader.Service.Model
import Dynamicloader.Service.Registry
import Dynamicloader.Service.Steps
import Dynamicloader.Service.Loads
import Dynamicloader.Service.Registration
import Dynamicloader.Service.Removal
import Dynamicloader.Service.Check
import Dynamicloader.Service.Watch
import Dynamicloader.Proxy.Model
import Dynamicloader.Proxy.Order
import Dynamicloader.Proxy.Query
import Dynamicloader.Loader.Model
import Dynamicloader.Loader.Release
import Dynamicloader.Loader.Maps
import Dynamicloader.Loader.Run
import Dynamicloader.Loader.Address
import Dynamicloader.Loader.Memory
import Dynamicloader.Loader.Block
import Dynamicloader.Resources.Model
import Dynamicloader.Resources.Cache
import Dynamicloader.Resources.Reload
import Dynamicloader.Resources.Fake
import Dynamicloader.Bridge.SortedSet
import Dynamicloader.Layouts.Model
import Dynamicloader.Layouts.Unhook
import Dynamicloader.Layouts.Includes
import Dynamicloader.Hooking.Model
import Dynamicloader.Hooking.Registry
import Dynamicloader.Hooking.Once
import Dynamicloader.Hooking.Live
import Dynamicloader.Hooking.Failed
import Dynamicloader.Modules.Model
import Dynamicloader.Modules.Started
import Dynamicloader.Modules.Init
import Dynamicloader.Session.Admissible
import Dynamicloader.Service.Polling
import Dynamicloader.Client.Model
import Dynamicloader.Client.Dex
import Dynamicloader.Bridge.Priority
import Dynamicloader.Bridge.Snapshot
import Dynamicloader.Native.Marshal
import Dynamicloader.Layouts.Names
import Dynamicloader.Native.Saved
import Dynamicloader.Resources.Getters
import Dynamicloader.Loader.Return
import Dynamicloader.Loader.Stages
import Dynamicloader.Loader.Absent
import Dynamicloader.Client.Entry
import Dynamicloader.Client.Buffers
import Dynamicloader.Loader.Copy
import Dynamicloader.Loader.Search
import Dynamicloader.Safemode.Model
import Dynamicloader.Safemode.Trigger
import Dynamicloader.Common.Stream
import Dynamicloader.Helpers.Digest
import Dynamicloader.Assets.Extract
import Dynamicloader.Preferences.Reload
import Dynamicloader.Common.Memo
import Dynamicloader.Helpers.Caches
import Dynamicloader.Helpers.Fields
import Dynamicloader.Helpers.Hints
import Dynamicloader.Loader.Convention
import Dynamicloader.Common.Monitor
import Dynamicloader.Zygote.Model
import Dynamicloader.Zygote.Progress
import Dynamicloader.Zygote.ReadFile
import Dynamicloader.Zygote.Return
import Dynamicloader.Art.Transparent
import Dynamicloader.Art.Hooked
import Dynamicloader.Art.Threads
import Dynamicloader.Resources.Xml
import Dynamicloader.Service.Authorised
import Dynamicloader.Client.Origin
import Dynamicloader.Injection
import Dynamicloader.Common.Parcel
import Dynamicloader.Services.Model
import Dynamicloader.Services.Binder
import Dynamicloader.Services.Agree
import Dynamicloader.Modules.Packages

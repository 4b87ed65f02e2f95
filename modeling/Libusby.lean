import Libusby.Linux.RefCount.Ownership
import Libusby.Core.Config.Overflow
import Libusby.Core.StringDescriptor.Truncation
import Libusby.Linux.EventLoop.Completion
import Libusby.Linux.EventLoop.Handover
import Libusby.Linux.EventLoop.WatchRefs
import Libusby.Wire
import Libusby.Linux.Client
import Libusby.Linux.RefCount.Listing
import Libusby.Linux.EventLoop.Wakeup
import Libusby.Linux.EventLoop.Reported
import Libusby.Win32.Reuse
import Libusby.Core.BulkTransfer
import Libusby.Linux.EventLoop.BulkReturn
import Libusby.Linux.ControlPaths
import Libusby.Linux.EventLoop.Lifecycle
import Libusby.Win32.Bulk
import Libusby.Outcome
import Libusby.Linux.CacheConsistency
import Libusby.Core.Config.Extent
import Libusby.Foundations.Dialogue
import Libusby.Core.DescriptorReads
import Libusby.Core.WholeDescriptor
import Libusby.Core.DescriptorLeaks
import Libusby.Win32.Configuration
import Libusby.Uninitialised
import Libusby.Core.Config.Allocation
import Libusby.Linux.ConfigLookup
import Libusby.Core.Lifetime
import Libusby.Core.Resurrection
import Libusby.Foundations.Links
import Libusby.Foundations.Token
import Libusby.Win32.Reaper.State
import Libusby.Win32.Reaper.Step
import Libusby.Win32.Reaper.Transitions
import Libusby.Win32.Reaper.Queue
import Libusby.Foundations.Pairing
import Libusby.Win32.Reaper.Conservation
import Libusby.Win32.Reaper.Bounds
import Libusby.DataStage
import Libusby.Linux.EventLoop.SubmitFailure
import Libusby.Inbound
import Libusby.Linux.ActiveConfiguration
import Libusby.Linux.Iteration
import Libusby.Linux.OutOfMemory
import Libusby.Core.Catalogue
import Libusby.Linux.Complete
import Libusby.Win32.Devices
import Libusby.Win32.Enumeration
import Libusby.Win32.Complete
import Libusby.Win32.Client
import Libusby.Unreadable
import Libusby.Foundations.Namesakes
import Libusby.Linux.Hotplug
import Libusby.Win32.Hotplug
import Libusby.Hotplug
import Libusby.Core.DeviceRing
import Libusby.DevlistRing
import Libusby.DeviceLists
import Libusby.Core.StringDescriptor.Rejection
import Libusby.Core.Config.Release
import Libusby.Search
import Libusby.Linux.EventLoop.ReapRound
import Libusby.Linux.EventLoop.ReapSimulation
import Libusby.Cpp.Ownership
import Libusby.Foundations.SwapRemove
import Libusby.Linux.EventLoop.ReapLoop
import Libusby.Linux.EventLoop.ReapBooks
import Libusby.Linux.EventLoop.ReapSimulation
import Libusby.Win32.RefCount
import Libusby.Win32.Search
import Libusby.Win32.Reaper.Watch
import Libusby.Win32.Reaper.Cancel
import Libusby.Win32.Reaper.Sleep
import Libusby.Win32.Reaper.Search
import Libusby.Win32.Reaper.Drain
import Libusby.Linux.EventLoop.Conservation
import Libusby.Linux.EventLoop.TableContents
import Libusby.Linux.EventLoop.Cancel
import Libusby.Core.Config.Encode
import Libusby.Core.Config.RoundTrip
import Libusby.Core.Description
import Libusby.Linux.Description
import Libusby.ActiveDescriptor
import Libusby.Core.StringDescriptor.Request
import Libusby.Strings
import Libusby.Foundations.Resources
import Libusby.Core.Session
import Libusby.Linux.Lifetimes
import Libusby.Win32.Lifetimes
import Libusby.Foundations.Ownership
import Libusby.Win32.Files
import Libusby.Win32.References
import Libusby.Win32.Reaper.Paths

import PirMesh.Config.KeyBind
import PirMesh.Config.KeyClient
import PirMesh.Config.ShareSub
import PirMesh.Config.ShareSubSpec
import PirMesh.Device.Boot
import PirMesh.Device.BootLoader
import PirMesh.Device.CounterRuns
import PirMesh.Device.CounterSpec
import PirMesh.Device.CounterWindow
import PirMesh.Device.DualMode
import PirMesh.Device.DualModeBoots
import PirMesh.Device.Join
import PirMesh.Device.JoinConfirm
import PirMesh.Device.MiRecord
import PirMesh.Device.ResetCounter
import PirMesh.Device.ResetResume
import PirMesh.Device.RuleConfirm
import PirMesh.FastProv.AddrGet
import PirMesh.FastProv.Allocation
import PirMesh.FastProv.Device
import PirMesh.FastProv.DeviceEnds
import PirMesh.FastProv.DeviceSpec
import PirMesh.FastProv.Provisioner
import PirMesh.Flash.ParDurable
import PirMesh.Flash.ParLog
import PirMesh.Flash.ParSpec
import PirMesh.Flash.ParStore
import PirMesh.Friend.Cache
import PirMesh.Friend.ClearWindow
import PirMesh.Friend.Delivery
import PirMesh.Friend.LpnSubs
import PirMesh.Friend.LpnSubsSpec
import PirMesh.Friend.Ship
import PirMesh.Friend.SubsList
import PirMesh.Friend.Table
import PirMesh.Gateway.Sar
import PirMesh.Heartbeat.Publish
import PirMesh.Heartbeat.Subscribe
import PirMesh.Heartbeat.SubscribePeriod
import PirMesh.Heartbeat.SubscribeSet
import PirMesh.Keys.Delete
import PirMesh.Keys.IdentityTimeout
import PirMesh.Keys.Invariant
import PirMesh.Keys.Restore
import PirMesh.Keys.RoundTrip
import PirMesh.Keys.Save
import PirMesh.Keys.Step
import PirMesh.Keys.Table
import PirMesh.Library.Accesses
import PirMesh.Library.Bisection
import PirMesh.Library.BitFields
import PirMesh.Library.BubbleSort
import PirMesh.Library.CoarseClock
import PirMesh.Library.CommitLog
import PirMesh.Library.Counters
import PirMesh.Library.Crc
import PirMesh.Library.Duplex
import PirMesh.Library.Format
import PirMesh.Library.FreePlaces
import PirMesh.Library.NextMatch
import PirMesh.Library.Nor
import PirMesh.Library.NumberedQueue
import PirMesh.Library.Paced
import PirMesh.Library.Prog
import PirMesh.Library.ProgFrame
import PirMesh.Library.PropertyList
import PirMesh.Library.Proportion
import PirMesh.Library.Ramp
import PirMesh.Library.Reassembly
import PirMesh.Library.Records
import PirMesh.Library.Register
import PirMesh.Library.Ring
import PirMesh.Library.Rounding
import PirMesh.Library.Run
import PirMesh.Library.Slots
import PirMesh.Library.StopWait
import PirMesh.Library.Tiling
import PirMesh.Library.Triple
import PirMesh.Library.Words
import PirMesh.Library.Writes
import PirMesh.Light.Control
import PirMesh.Light.CtlTemp
import PirMesh.Light.DeltaSet
import PirMesh.Light.Hue
import PirMesh.Light.HueSpec
import PirMesh.Light.Level
import PirMesh.Light.Linear
import PirMesh.Light.MoveSet
import PirMesh.Light.PowerUp
import PirMesh.Light.Transition
import PirMesh.Light.TransitionSpec
import PirMesh.Light.TransitionSteps
import PirMesh.Node.Advertise
import PirMesh.Node.AisAuth
import PirMesh.Node.Composition
import PirMesh.Node.Misc
import PirMesh.Node.Property
import PirMesh.Node.PublishDelay
import PirMesh.Node.Sequence
import PirMesh.Node.Ticks
import PirMesh.Ota.Accept
import PirMesh.Ota.BlockCheck
import PirMesh.Ota.Cleanup
import PirMesh.Ota.Sender
import PirMesh.Ota.Write
import PirMesh.Phone.AccessPdu
import PirMesh.Phone.CommandList
import PirMesh.Phone.CommandListSpec
import PirMesh.Phone.CompositionPage
import PirMesh.Phone.CompositionPageSpec
import PirMesh.Phone.ConfigMessage
import PirMesh.Phone.ConfigMessageSpec
import PirMesh.Phone.DeliverySpec
import PirMesh.Phone.FastProvision
import PirMesh.Phone.FastProvisionSpec
import PirMesh.Phone.GenericMessage
import PirMesh.Phone.KeyIndexes
import PirMesh.Phone.LibTools
import PirMesh.Phone.LowerTransport
import PirMesh.Phone.MeshDictionary
import PirMesh.Phone.MeshDictionarySpec
import PirMesh.Phone.MessageShapes
import PirMesh.Phone.MessageTable
import PirMesh.Phone.MessageTableSpec
import PirMesh.Phone.NetworkPdu
import PirMesh.Phone.NetworkPduSpec
import PirMesh.Phone.ProvisionAddress
import PirMesh.Phone.Provisioner
import PirMesh.Phone.ProvisioningData
import PirMesh.Phone.ProvisioningManager
import PirMesh.Phone.ProvisioningOrder
import PirMesh.Phone.ProvisioningResult
import PirMesh.Phone.ProxyProtocol
import PirMesh.Phone.QueueFlow
import PirMesh.Phone.QueueShape
import PirMesh.Phone.QueueSpec
import PirMesh.Phone.Reassembly
import PirMesh.Phone.Replay
import PirMesh.Phone.SchedulerFields
import PirMesh.Phone.SchedulerMessage
import PirMesh.Phone.SecureBeacon
import PirMesh.Phone.SegmentQueue
import PirMesh.Phone.Segments
import PirMesh.Phone.SegmentsSpec
import PirMesh.Phone.SensorDescriptor
import PirMesh.Phone.SequenceSpec
import PirMesh.Phone.TimeDescriptorSpec
import PirMesh.Phone.TimeMessage
import PirMesh.Phone.TransactionIds
import PirMesh.Prov.EcdhKey
import PirMesh.Prov.EcdhKeySpec
import PirMesh.Prov.EndToEnd
import PirMesh.Prov.Gatt
import PirMesh.Prov.GattSar
import PirMesh.Prov.GattSpec
import PirMesh.Prov.OverGatt
import PirMesh.Prov.PbAdv
import PirMesh.Prov.PbAdvSafe
import PirMesh.Prov.PbAdvSpec
import PirMesh.Proxy.ConfigTrace
import PirMesh.Proxy.FilterList
import PirMesh.Proxy.GattBearer
import PirMesh.Proxy.SetPdu
import PirMesh.Scene.Register
import PirMesh.Sensor.Cadence
import PirMesh.Sensor.HoldTime
import PirMesh.Sensor.LuxReport
import PirMesh.Sensor.Motion
import PirMesh.Sensor.PowerReport
import PirMesh.Sensor.PulseWindow
import PirMesh.Sensor.Reports
import PirMesh.Sensor.SensorSafety
import PirMesh.Sensor.SensorsModel
import PirMesh.Sensor.Stamps
import PirMesh.Sensor.Wake
import PirMesh.Time.AliAtomic
import PirMesh.Time.AliBounds
import PirMesh.Time.AliMessages
import PirMesh.Time.AliRecords
import PirMesh.Time.AliReport
import PirMesh.Time.AliReportSpec
import PirMesh.Time.AliTiming
import PirMesh.Time.AliTimingSpec
import PirMesh.Time.Calendar
import PirMesh.Time.CalendarSpec
import PirMesh.Time.Clock
import PirMesh.Time.ClockRuns
import PirMesh.Time.Scheduler
import PirMesh.Time.SchedulerSearch
import PirMesh.Time.SystemTime
import PirMesh.Timer.SoftTimer
import PirMesh.Timer.SoftTimerRuns
import PirMesh.Phone.UpperTransport

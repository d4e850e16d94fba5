import WaterController.Library.Machine
import WaterController.Core.WaterValve
import WaterController.Valve.Refinement
import WaterController.Valve.Interlock
import WaterController.Library.Sampling
import WaterController.Valve.Pulse
import WaterController.Valve.TimingChange
import WaterController.Core.Schedule
import WaterController.Core.State
import WaterController.Core.Switch
import WaterController.Core.Calibration
import WaterController.Core.Config
import WaterController.Core.App
import WaterController.App.Run
import WaterController.App.Latch
import WaterController.App.Commands
import WaterController.App.FlowAlarm
import WaterController.Library.SingleFloat
import WaterController.Library.PiecewiseLinear
import WaterController.Library.BoundedText
import WaterController.Library.Utf8
import WaterController.Library.Http
import WaterController.Library.Spacing
import WaterController.Library.RoundRobin
import WaterController.Library.Window
import WaterController.Schedule.Windows
import WaterController.Firmware.ScheduleTask
import WaterController.Schedule.Firings
import WaterController.Schedule.CatchUp
import WaterController.App.AlarmTiming
import WaterController.App.PowerLoss
import WaterController.App.Sprinklers
import WaterController.App.AlarmEvents
import WaterController.Calibration.Usable
import WaterController.Calibration.Interpolation
import WaterController.Calibration.Chain
import WaterController.Firmware.ConfigApi
import WaterController.Firmware.ConfigWrites
import WaterController.Firmware.Sections
import WaterController.Firmware.Held
import WaterController.Firmware.Calibrations
import WaterController.Config.Redaction
import WaterController.Firmware.ConfigReads
import WaterController.Host.HttpApi
import WaterController.Firmware.WifiFollows
import WaterController.Firmware.Writers
import WaterController.Firmware.WifiRace
import WaterController.Firmware.FlowTask
import WaterController.Library.Json
import WaterController.Core.ConfigJson
import WaterController.Config.JsonRoundTrip
import WaterController.Firmware.RoundTrip
import WaterController.Library.LittleEndian
import WaterController.Library.ByteMemory
import WaterController.Nostd.FlashKv
import WaterController.Nostd.FlashImage
import WaterController.Nostd.FlashPanics
import WaterController.Nostd.FlashRuns
import WaterController.Nostd.PowerCut
import WaterController.Nostd.Ota
import WaterController.Nostd.WebApi
import WaterController.Nostd.Device
import WaterController.Nostd.Dhcp
import WaterController.Nostd.Connection
import WaterController.Nostd.Serial
import WaterController.Nostd.Webhook
import WaterController.Nostd.WebhookStatus
import WaterController.Nostd.WebhookRequest
import WaterController.Nostd.OtaStream
import WaterController.Nostd.OtaRefines
import WaterController.Nostd.AdminToken
import WaterController.Nostd.Merge
import WaterController.Nostd.SectionPut
import WaterController.Config.WebhookCap
import WaterController.Firmware.HttpServer
import WaterController.Core.HaDiscovery
import WaterController.Core.MqttDispatch
import WaterController.Mqtt.Routing
import WaterController.Mqtt.Session
import WaterController.App.ValvePersistence
import WaterController.Schedule.ClockJump
import WaterController.App.AlarmHistory
import WaterController.Firmware.FactoryReset
import WaterController.Firmware.PulseCounter
import WaterController.Firmware.ScanSlot
import WaterController.Dns.Responders
import WaterController.Dns.Answered
import WaterController.Dns.Replies
import WaterController.Library.Replace
import WaterController.Webhook.Template
import WaterController.Library.JsonText
import WaterController.Webhook.DefaultBody
import WaterController.Core.LogBuffer
import WaterController.Log.Delivery
import WaterController.Log.Telnet
import WaterController.Library.Backoff
import WaterController.Firmware.MqttSupervisor
import WaterController.Nostd.BootModes
import WaterController.Webhook.Queue
import WaterController.Webhook.Builds
import WaterController.Nostd.Sntp
import WaterController.Library.CircularBuffer
import WaterController.Firmware.BatteryTask
import WaterController.Library.Streak
import WaterController.Firmware.WifiThread
import WaterController.Library.Script
import WaterController.Nostd.MqttSession
import WaterController.Library.Terminal
import WaterController.Firmware.SerialCli
import WaterController.Library.Cursor
import WaterController.Log.WsFanout
import WaterController.Log.WsSessions
import WaterController.Log.WsPass
import WaterController.Nostd.WifiScan
import WaterController.Firmware.Ota
import WaterController.Firmware.Secrets

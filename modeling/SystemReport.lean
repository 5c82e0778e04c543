import SystemReport.Lib.Machine
import SystemReport.Lib.Ledger
import SystemReport.Lib.AssocList
import SystemReport.Lib.Search
import SystemReport.Lib.Backoff
import SystemReport.Lib.Rank
import SystemReport.Lib.F64
import SystemReport.Lib.F64Bounds
import SystemReport.Lib.Yaml
import SystemReport.Lib.YamlPath
import SystemReport.Lib.Json
import SystemReport.Outcome
import SystemReport.Duration
import SystemReport.Text
import SystemReport.Mqtt.Rumqttc
import SystemReport.Mqtt.Worker
import SystemReport.Mqtt.Link
import SystemReport.Mqtt.Attribution
import SystemReport.Mqtt.Capacity
import SystemReport.Mqtt.Publisher
import SystemReport.Mqtt.Progress
import SystemReport.Mqtt.Recovery
import SystemReport.Mqtt.Outage
import SystemReport.Mqtt.Drops
import SystemReport.Mqtt.Goodbye
import SystemReport.Config.Template
import SystemReport.Config.Grammar
import SystemReport.Config.Merge
import SystemReport.Config.MergeExact
import SystemReport.Config.Defaults
import SystemReport.Config.Validate
import SystemReport.Config.Load
import SystemReport.Config.Accepted
import SystemReport.Config.FieldTopics
import SystemReport.Config.Redact
import SystemReport.Config.Agree
import SystemReport.Config.Secrecy
import SystemReport.Config.Print
import SystemReport.Mqtt.Tls
import SystemReport.Mqtt.Pem
import SystemReport.Mqtt.Setup
import SystemReport.Mqtt.Announce
import SystemReport.Mqtt.Sessions
import SystemReport.Mqtt.Ranges
import SystemReport.Mqtt.Backoff
import SystemReport.SdNotify
import SystemReport.Collectors
import SystemReport.Collectors.Exact
import SystemReport.Reporter.Report
import SystemReport.Reporter.Agreement
import SystemReport.Reporter.Schedule
import SystemReport.Reporter.Loop
import SystemReport.Reporter.Budget
import SystemReport.Startup
import SystemReport.Arguments
import SystemReport.Service
import SystemReport.Service.Delivery
import SystemReport.Service.Ticks
import SystemReport.Service.Shutdown
import SystemReport.Service.Lifecycle
import SystemReport.Mqtt.Verdicts
import SystemReport.Service.Status
import SystemReport.Lib.Framing
import SystemReport.Log
import SystemReport.Config.File
import SystemReport.Program
import SystemReport.Program.Twins
import SystemReport.Program.Secrecy
import SystemReport.Lib.JsonRead
import SystemReport.Lib.JsonText
import SystemReport.Lib.JsonPath
import SystemReport.Config.Shown
import SystemReport.Reporter.Reading
import SystemReport.Program.Reading
import SystemReport.SdNotify.Socket
import SystemReport.Service.Notifications

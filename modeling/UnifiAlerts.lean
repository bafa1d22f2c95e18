import UnifiAlerts.Window
import UnifiAlerts.Acknowledge
import UnifiAlerts.Watermark
import UnifiAlerts.Awareness
import UnifiAlerts.Transport
import UnifiAlerts.Timers
import UnifiAlerts.Durability
import UnifiAlerts.Reload
import UnifiAlerts.PushDedup
import UnifiAlerts.Webhook
import UnifiAlerts.WebhookAuth
import UnifiAlerts.Classification
import UnifiAlerts.KeyRejection
import UnifiAlerts.Reachability
import UnifiAlerts.Identity
import UnifiAlerts.StagedUpdate
import UnifiAlerts.Rediscovery
import UnifiAlerts.Validation
import UnifiAlerts.EventEntity
import UnifiAlerts.ClockSkew
import UnifiAlerts.ProbeCache
import UnifiAlerts.SetupCleanup
import UnifiAlerts.OptionsAtomicity
import UnifiAlerts.Roundtrip
import UnifiAlerts.ClearFailure
import UnifiAlerts.PollContract
import UnifiAlerts.Sightings
import UnifiAlerts.RecordTolerance
import UnifiAlerts.Repolling
import UnifiAlerts.StoreCorruption
import UnifiAlerts.EventKeys
import UnifiAlerts.Migration
import UnifiAlerts.Templates
import UnifiAlerts.Pagination
import UnifiAlerts.LegacyAnswers
import UnifiAlerts.AlarmUrlCache
import UnifiAlerts.Conservation
import UnifiAlerts.PushKeys
import UnifiAlerts.ControllerVersion
import UnifiAlerts.Diagnostics
import UnifiAlerts.SeverityGate
import UnifiAlerts.Entities
import UnifiAlerts.Services
import UnifiAlerts.Cells
import UnifiAlerts.Accounting
import UnifiAlerts.AutoClear
import UnifiAlerts.Issues
import UnifiAlerts.Removal
import UnifiAlerts.Content
import UnifiAlerts.Views
import UnifiAlerts.Forms
import UnifiAlerts.FinishForm
import UnifiAlerts.Display

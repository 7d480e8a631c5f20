import Rampart.Json.Decode
import Rampart.Json.Encode
import Rampart.Settings

/-!
# The JSON form of settings

Sections and settings by name. Each may be missing, and then has its default.

* `Scalars` is how single values are read: strictly from JSON, or with conversions from a settings
  file (`Settings.File`). The sections are the same for both.
-/

namespace Rampart

open Json (Decoder Fields member nullable)

/-- How single values are read. -/
structure Scalars where
  string : Decoder String
  boolean : Decoder Bool
  word : Decoder UInt64
  word32 : Decoder UInt32
  word16 : Decoder UInt16

/-- Values of exactly the right kind. -/
def Scalars.strict : Scalars :=
  ⟨Json.string, Json.boolean, Json.word, Json.word32, Json.word16⟩

namespace Settings

instance : Encode Listen where
  encode x := .obj [member "listen_addr" x.address, member "metrics_addr" x.metricsAddress,
    member "state_file" x.stateFile, member "snapshot_interval_seconds" x.snapshotInterval]

/-- The settings of the section `server`. -/
def Listen.fields (s : Scalars) : Fields Listen :=
  .mk <$> .withDefault "listen_addr" s.string ({} : Listen).address
    <*> .withDefault "metrics_addr" s.string ({} : Listen).metricsAddress
    <*> .withDefault "state_file" (nullable s.string) ({} : Listen).stateFile
    <*> .withDefault "snapshot_interval_seconds" s.word ({} : Listen).snapshotInterval

instance : Encode Broker where
  encode x := .obj [member "enabled" x.enabled, member "url" x.url, member "rule_events_subject"
    x.ruleSubject, member "server_events_subject" x.serverSubject]

/-- The settings of the section `nats`. -/
def Broker.fields (s : Scalars) : Fields Broker :=
  .mk <$> .withDefault "enabled" s.boolean ({} : Broker).enabled
    <*> .withDefault "url" s.string ({} : Broker).url
    <*> .withDefault "rule_events_subject" s.string ({} : Broker).ruleSubject
    <*> .withDefault "server_events_subject" s.string ({} : Broker).serverSubject

instance : Encode Engine where
  encode x := .obj [member "image" x.image, member "container_name" x.container, member
    "lapi_host" x.lapiHost, member "lapi_scheme" x.lapiScheme, member "appsec_host"
    x.appsecHost, member "base_dir" x.baseDir, member "scenario_dir" x.scenarioDir, member
    "proxy_container" x.proxyContainer, member "proxy_compose_path" x.proxyComposePath, member
    "proxy_dynamic_dir" x.proxyDynamicDir, member "traffic_logger_image" x.trafficLoggerImage,
    member "traffic_logger_dir" x.trafficLoggerDir, member "traffic_logger_health_url"
    x.trafficLoggerHealthUrl, member "alert_webhook_url" x.alertWebhookUrl]

/-- The settings of the section `engine`. -/
def Engine.fields (s : Scalars) : Fields Engine :=
  .mk <$> .withDefault "image" s.string ({} : Engine).image
    <*> .withDefault "container_name" s.string ({} : Engine).container
    <*> .withDefault "lapi_host" s.string ({} : Engine).lapiHost
    <*> .withDefault "lapi_scheme" s.string ({} : Engine).lapiScheme
    <*> .withDefault "appsec_host" s.string ({} : Engine).appsecHost
    <*> .withDefault "base_dir" s.string ({} : Engine).baseDir
    <*> .withDefault "scenario_dir" s.string ({} : Engine).scenarioDir
    <*> .withDefault "proxy_container" s.string ({} : Engine).proxyContainer
    <*> .withDefault "proxy_compose_path" s.string ({} : Engine).proxyComposePath
    <*> .withDefault "proxy_dynamic_dir" s.string ({} : Engine).proxyDynamicDir
    <*> .withDefault "traffic_logger_image" s.string ({} : Engine).trafficLoggerImage
    <*> .withDefault "traffic_logger_dir" s.string ({} : Engine).trafficLoggerDir
    <*> .withDefault "traffic_logger_health_url" s.string ({} : Engine).trafficLoggerHealthUrl
    <*> .withDefault "alert_webhook_url" (nullable s.string) ({} : Engine).alertWebhookUrl

instance : Encode Bouncer where
  encode x := .obj [member "middleware_namespace" x.middlewareNamespace, member
    "appsec_namespace" x.appsecNamespace, member "mode" x.mode, member "update_interval_seconds"
    x.updateInterval, member "log_level" x.logLevel, member "trusted_proxies" x.trustedProxies,
    member "local_cache" x.localCache, member "appsec_feature_enabled" x.appsecFeature, member
    "http_timeout_seconds" x.httpTimeout, member "blocked_status_code" x.blockedStatus]

/-- The settings of the section `bouncer`. -/
def Bouncer.fields (s : Scalars) : Fields Bouncer :=
  .mk <$> .withDefault "middleware_namespace" s.string ({} : Bouncer).middlewareNamespace
    <*> .withDefault "appsec_namespace" s.string ({} : Bouncer).appsecNamespace
    <*> .withDefault "mode" s.string ({} : Bouncer).mode
    <*> .withDefault "update_interval_seconds" s.word ({} : Bouncer).updateInterval
    <*> .withDefault "log_level" s.string ({} : Bouncer).logLevel
    <*> .withDefault "trusted_proxies" (Json.list s.string) ({} : Bouncer).trustedProxies
    <*> .withDefault "local_cache" s.boolean ({} : Bouncer).localCache
    <*> .withDefault "appsec_feature_enabled" s.boolean ({} : Bouncer).appsecFeature
    <*> .withDefault "http_timeout_seconds" s.word ({} : Bouncer).httpTimeout
    <*> .withDefault "blocked_status_code" s.word16 ({} : Bouncer).blockedStatus

instance : Encode Scenarios where
  encode x := .obj [member "namespace" x.ns, member "capacity" x.capacity, member "leakspeed"
    x.leakSpeed]

/-- The settings of the section `scenarios`. -/
def Scenarios.fields (s : Scalars) : Fields Scenarios :=
  .mk <$> .withDefault "namespace" s.string ({} : Scenarios).ns
    <*> .withDefault "capacity" s.word32 ({} : Scenarios).capacity
    <*> .withDefault "leakspeed" s.string ({} : Scenarios).leakSpeed

instance : Encode Deployment where
  encode x := .obj [member "decision_delay_seconds" x.decisionDelay, member
    "bouncer_reload_delay_seconds" x.bouncerReloadDelay, member "redeploy_webhook_url"
    x.redeployUrl, member "sync_tries" x.syncTries, member "sync_backoff_seconds" x.syncBackoff]

/-- The settings of the section `deployment`. -/
def Deployment.fields (s : Scalars) : Fields Deployment :=
  .mk <$> .withDefault "decision_delay_seconds" s.word ({} : Deployment).decisionDelay
    <*> .withDefault "bouncer_reload_delay_seconds" s.word ({} : Deployment).bouncerReloadDelay
    <*> .withDefault "redeploy_webhook_url" (nullable s.string) ({} : Deployment).redeployUrl
    <*> .withDefault "sync_tries" s.word32 ({} : Deployment).syncTries
    <*> .withDefault "sync_backoff_seconds" (Json.list s.word) ({} : Deployment).syncBackoff

instance : Encode Bootstrap where
  encode x := .obj [member "crowdsec_offset_seconds" x.engineOffset, member "crowdsec_tries"
    x.engineTries, member "crowdsec_backoff_seconds" x.engineBackoff, member
    "crowdsec_retry_window_seconds" x.engineWindow, member "request_logging_offset_seconds"
    x.requestLoggingOffset, member "header_logging_offset_seconds" x.headerLoggingOffset, member
    "log_shipping_offset_seconds" x.logShippingOffset, member "traffic_logger_offset_seconds"
    x.trafficLoggerOffset, member "validation_offset_seconds" x.validationOffset, member
    "revalidate_after_seconds" x.revalidateAfter, member "max_revalidations" x.maxRevalidations]

/-- The settings of the section `bootstrap`. -/
def Bootstrap.fields (s : Scalars) : Fields Bootstrap :=
  .mk <$> .withDefault "crowdsec_offset_seconds" s.word ({} : Bootstrap).engineOffset
    <*> .withDefault "crowdsec_tries" s.word32 ({} : Bootstrap).engineTries
    <*> .withDefault "crowdsec_backoff_seconds" (Json.list s.word) ({} : Bootstrap).engineBackoff
    <*> .withDefault "crowdsec_retry_window_seconds" s.word ({} : Bootstrap).engineWindow
    <*> .withDefault "request_logging_offset_seconds" s.word ({} : Bootstrap).requestLoggingOffset
    <*> .withDefault "header_logging_offset_seconds" s.word ({} : Bootstrap).headerLoggingOffset
    <*> .withDefault "log_shipping_offset_seconds" s.word ({} : Bootstrap).logShippingOffset
    <*> .withDefault "traffic_logger_offset_seconds" s.word ({} : Bootstrap).trafficLoggerOffset
    <*> .withDefault "validation_offset_seconds" s.word ({} : Bootstrap).validationOffset
    <*> .withDefault "revalidate_after_seconds" s.word ({} : Bootstrap).revalidateAfter
    <*> .withDefault "max_revalidations" s.word32 ({} : Bootstrap).maxRevalidations

instance : Encode Scheduling where
  encode x := .obj [member "workers" x.workers]

/-- The settings of the section `scheduler`. -/
def Scheduling.fields (s : Scalars) : Fields Scheduling :=
  .mk <$> .withDefault "workers" s.word ({} : Scheduling).workers

instance : Encode Hooks where
  encode x := .obj [member "failure_webhook_url" x.failureUrl]

/-- The settings of the section `hooks`. -/
def Hooks.fields (s : Scalars) : Fields Hooks :=
  .mk <$> .withDefault "failure_webhook_url" (nullable s.string) ({} : Hooks).failureUrl

instance : Encode Alerts where
  encode x := .obj [member "enabled" x.enabled, member "sync_interval_seconds" x.syncInterval,
    member "lookback_hours" x.lookbackHours, member "dedupe_window_seconds" x.dedupeWindow,
    member "max_per_application" x.maxPerApplication]

/-- The settings of the section `alerts`. -/
def Alerts.fields (s : Scalars) : Fields Alerts :=
  .mk <$> .withDefault "enabled" s.boolean ({} : Alerts).enabled
    <*> .withDefault "sync_interval_seconds" s.word ({} : Alerts).syncInterval
    <*> .withDefault "lookback_hours" s.word ({} : Alerts).lookbackHours
    <*> .withDefault "dedupe_window_seconds" s.word ({} : Alerts).dedupeWindow
    <*> .withDefault "max_per_application" s.word ({} : Alerts).maxPerApplication

instance : Encode Ssh where
  encode x := .obj [member "identity_file" x.identityFile, member "connect_timeout_seconds"
    x.connectTimeout, member "command_timeout_seconds" x.commandTimeout, member
    "strict_host_key_checking" x.strictHostKeys]

/-- The settings of the section `ssh`. -/
def Ssh.fields (s : Scalars) : Fields Ssh :=
  .mk <$> .withDefault "identity_file" (nullable s.string) ({} : Ssh).identityFile
    <*> .withDefault "connect_timeout_seconds" s.word ({} : Ssh).connectTimeout
    <*> .withDefault "command_timeout_seconds" s.word ({} : Ssh).commandTimeout
    <*> .withDefault "strict_host_key_checking" s.boolean ({} : Ssh).strictHostKeys

instance : Encode Logging where
  encode x := .obj [member "level" x.level, member "format" x.format]

/-- The settings of the section `logging`. -/
def Logging.fields (s : Scalars) : Fields Logging :=
  .mk <$> .withDefault "level" s.string ({} : Logging).level
    <*> .withDefault "format" s.string ({} : Logging).format

end Settings

instance : Encode Settings where
  encode x := .obj [member "server" x.listen,
    member "nats" x.broker,
    member "engine" x.engine,
    member "bouncer" x.bouncer,
    member "scenarios" x.scenarios,
    member "deployment" x.deployment,
    member "bootstrap" x.bootstrap,
    member "scheduler" x.scheduling,
    member "hooks" x.hooks,
    member "alerts" x.alerts,
    member "ssh" x.ssh,
    member "logging" x.logging]

/-- All sections. -/
def Settings.fields (s : Scalars) : Fields Settings :=
  .mk <$> .withDefault "server" (Settings.Listen.fields s).decode {}
    <*> .withDefault "nats" (Settings.Broker.fields s).decode {}
    <*> .withDefault "engine" (Settings.Engine.fields s).decode {}
    <*> .withDefault "bouncer" (Settings.Bouncer.fields s).decode {}
    <*> .withDefault "scenarios" (Settings.Scenarios.fields s).decode {}
    <*> .withDefault "deployment" (Settings.Deployment.fields s).decode {}
    <*> .withDefault "bootstrap" (Settings.Bootstrap.fields s).decode {}
    <*> .withDefault "scheduler" (Settings.Scheduling.fields s).decode {}
    <*> .withDefault "hooks" (Settings.Hooks.fields s).decode {}
    <*> .withDefault "alerts" (Settings.Alerts.fields s).decode {}
    <*> .withDefault "ssh" (Settings.Ssh.fields s).decode {}
    <*> .withDefault "logging" (Settings.Logging.fields s).decode {}

/-- Settings from their JSON form. -/
def Settings.decode : Decoder Settings := (Settings.fields .strict).decode

instance : Encode RetryPolicy where
  encode p := .obj [member "tries" p.tries, member "backoff" p.backoff, member "window" p.window]

end Rampart

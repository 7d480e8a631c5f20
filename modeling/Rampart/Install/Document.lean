import Rampart.Remote
import Rampart.Settings

/-!
# Files of the components

The files that are written to a server when components are installed on it, and the flags that
are added to the compose file of the proxy.

* Flags of the proxy are lines of its compose file. `ensureFlag` is a command that adds one after
  every line with the anchor, unless the file has it somewhere already: running it again changes
  nothing.
* `engineCompose`, `proxyConfig`, … are the files.
-/

namespace Rampart.Install

/-! ## Start-up flags of the proxy -/

/-- The argument after which flags are added. -/
def anchor : String := "--entrypoints.http.address"

/-- The access log inside the proxy's container. -/
def accessLog : String := "/traefik/access.log"

/-- The flags of request logging. -/
def requestFlags : List String :=
  ["--accesslog=true", "--accesslog.format=json", "--accesslog.filepath=" ++ accessLog]

/-- The flags of header logging. -/
def headerFlags : List String :=
  ["User-Agent", "Referer", "X-Forwarded-For", "X-Real-Ip"].map fun header =>
    s!"--accesslog.fields.headers.names.{header}=keep"

/-- The line of a flag in the compose file. -/
def flagLine (flag : String) : String :=
  "      - " ++ flag

/-- Test whether a file has a flag. -/
def hasFlag (path flag : String) : String :=
  s!"grep -qF -- {Text.Word.quote flag} {Text.Word.quote path}"

/-- Add a flag to the compose file unless it is there. -/
def ensureFlag (path flag : String) : String :=
  let edit := "/" ++ anchor ++ "/a\\" ++ flagLine flag
  s!"{hasFlag path flag} || sed -i {Text.Word.quote edit} {Text.Word.quote path}"

/-! ## Files -/

open Remote (parentOf)

/-- Lines, each with its line feed. -/
def textOf (lines : List String) : String :=
  String.join (lines.map (· ++ "\n"))

/-- The compose file of the engine. -/
def engineCompose (e : Settings.Engine) : String :=
  textOf ["services:",
    s!"  {e.container}:",
    s!"    image: {e.image}",
    s!"    container_name: {e.container}",
    "    restart: unless-stopped",
    "    environment:",
    "      COLLECTIONS: \"crowdsecurity/traefik crowdsecurity/http-cve " ++
      "crowdsecurity/appsec-virtual-patching crowdsecurity/appsec-generic-rules\"",
    "    volumes:",
    s!"      - {e.baseDir}/config:/etc/crowdsec",
    s!"      - {e.baseDir}/data:/var/lib/crowdsec/data",
    s!"      - {e.scenarioDir}:/etc/crowdsec/scenarios/bastion",
    "      - " ++ parentOf e.proxyComposePath ++ ":/traefik:ro",
    "    networks:",
    "      - bastion",
    "networks:",
    "  bastion:",
    "    external: true"]

/-- The proxy's configuration that declares the bouncer, with its credential. -/
def proxyConfig (e : Settings.Engine) (b : Settings.Bouncer) (key : String) : String :=
  textOf ["http:",
    "  middlewares:",
    "    crowdsec:",
    "      plugin:",
    "        bouncer:",
    "          enabled: true",
    s!"          logLevel: {b.logLevel}",
    s!"          updateIntervalSeconds: {b.updateInterval}",
    s!"          crowdsecMode: {b.mode}",
    s!"          crowdsecLapiKey: {key}",
    s!"          crowdsecLapiHost: {e.lapiHost}",
    s!"          crowdsecLapiScheme: {e.lapiScheme}"]

/-- The engine's configuration that reports alerts to an address. -/
def alertConfig (url : String) : String :=
  textOf ["type: http",
    "name: bastion_webhook",
    "log_level: info",
    "format: |",
    "  \x7b\x7b.|toJson\x7d\x7d",
    s!"url: {url}",
    "method: POST",
    "headers:",
    "  Content-Type: application/json"]

/-- What follows the last colon of a text, or all of it. -/
def afterLastColon (text : String) : String :=
  String.ofList (text.toList.reverse.takeWhile (· != ':')).reverse

/-- The engine's configuration of what it reads: the access log, and inspection. -/
def acquisition (e : Settings.Engine) : String :=
  textOf ["filenames:",
    s!"  - {accessLog}",
    "labels:",
    "  type: traefik",
    "---",
    "source: appsec",
    "listen_addr: 0.0.0.0:" ++ afterLastColon e.appsecHost,
    "appsec_config: crowdsecurity/appsec-default",
    "labels:",
    "  type: appsec"]

/-- The compose file of the traffic counters. -/
def trafficCompose (e : Settings.Engine) : String :=
  textOf ["services:",
    "  traffic-logger:",
    s!"    image: {e.trafficLoggerImage}",
    "    container_name: traffic-logger",
    "    restart: unless-stopped",
    "    ports:",
    "      - \"127.0.0.1:3001:3001\"",
    "    volumes:",
    "      - " ++ parentOf e.proxyComposePath ++ ":/traefik:ro",
    "    environment:",
    s!"      ACCESS_LOG: {accessLog}"]

end Rampart.Install

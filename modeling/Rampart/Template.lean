import Rampart.Failure
import Rampart.Rule
import Rampart.Text.Blank

/-!
# Ready-made rules

Templates for rate limits and bots, and rules that block countries. They make rules like any user
does, which are saved and compiled like any other.

* `Template.catalog` lists the templates; `Template.find` looks one up.
* `geoBlockRule` takes countries in any order, case and number.
-/

namespace Rampart

/-- What a template is for. -/
inductive TemplateKind
  | rateLimit
  | botManagement
deriving DecidableEq, Repr

/-- The name of a kind. -/
def TemplateKind.name : TemplateKind → String
  | rateLimit => "rate_limit"
  | botManagement => "bot_management"

/-- A ready-made rule. -/
structure Template where
  key : String
  kind : TemplateKind
  name : String
  description : String
  mode : Mode
  action : Action
  joiner : Joiner
  conditions : List Condition
  priority : Int32
  duration : Option UInt64
deriving DecidableEq, Repr

namespace Template

/-- The rule of a template, not yet saved. -/
def rule (t : Template) : Rule where
  name := t.name
  description := some t.description
  mode := t.mode
  action := t.action
  joiner := t.joiner
  conditions := t.conditions
  priority := t.priority
  duration := t.duration

/-- A template that bans for some time. -/
def rateLimit (key name description : String) (conditions : List Condition)
    (duration : UInt64) : Template :=
  ⟨key, .rateLimit, name, description, .pathOnly, .ban, .and, conditions, 50, some duration⟩

/-- A template that looks at the user agent. -/
def botRule (key name description pattern : String) (action : Action) (priority : Int32) :
    Template :=
  ⟨key, .botManagement, name, description, .pathOnly, action, .and,
   [⟨"user_agent", "regex", pattern⟩], priority, none⟩

/-- The condition of a submission. -/
def isPost : Condition := ⟨"method", "equals", "POST"⟩

/-- All templates. -/
def catalog : List Template :=
  [rateLimit "api_rate_limit" "API Rate Limit" "Bans clients hammering the API"
    [⟨"request_path", "starts_with", "/api/"⟩] 300,
   rateLimit "login_brute_force" "Login Brute Force Protection" "Bans repeated login submissions"
    [⟨"request_path", "contains", "login"⟩, isPost] 1800,
   rateLimit "form_submission_limit" "Form Submission Limit"
    "Bans spam on contact, feedback and subscribe forms"
    [⟨"request_path", "regex", "/(contact|feedback|subscribe)"⟩, isPost] 7200,
   rateLimit "download_rate_limit" "Download Rate Limit"
    "Bans bulk downloading of archives and media"
    [⟨"request_path", "regex", "\\.(pdf|zip|tar|gz|mp4|avi|mkv)$"⟩] 86400,
   botRule "block_known_bots" "Block Known Bots & Crawlers"
    "Blocks common bots, crawlers and scrapers by user agent"
    "(bot|crawler|spider|scraper|slurp|archive|indexer|wget|curl)" .ban 90,
   botRule "block_aggressive_crawlers" "Block Aggressive SEO Crawlers"
    "Blocks SEO crawlers known for heavy crawling"
    ("(ahrefs|semrush|majestic|mj12|serpstat|cognitiveseo|linkdex|dotbot|rogerbot|exabot|" ++
      "ezooms)") .ban 85,
   botRule "challenge_suspicious_bots" "Challenge Suspicious Bots with CAPTCHA"
    "Challenges scripted HTTP clients"
    "^(python|java|go-http|ruby|perl|libwww|httpclient)" .captcha 95,
   botRule "block_scrapers" "Block Content Scrapers"
    "Blocks tools used for content scraping and data extraction"
    ("(scrapy|beautifulsoup|selenium|phantomjs|headless|puppeteer|playwright|apify|" ++
      "scrapingbot|import\\.io|parsehub)") .ban 80]

/-- The template of a key. -/
def find (key : String) : Except Failure Template :=
  match catalog.find? (·.key == key) with
  | some t => .ok t
  | none => .error (.notFound s!"rule template {key}")

end Template

/-! ## Countries -/

/-- The code of a country, in upper case: two letters. -/
def countryCode? (text : String) : Option String :=
  match (Text.trim text.toList).map Char.toUpper with
  | [a, b] => if a.isUpper && b.isUpper then some (String.ofList [a, b]) else none
  | _ => none

/-- Insert a text in order, once. -/
def insertSorted (text : String) : List String → List String
  | [] => [text]
  | other :: others =>
    if text = other then other :: others
    else if text < other then text :: other :: others
    else other :: insertSorted text others

/-- The codes of several countries in order. -/
def countryCodes (countries : List String) : Except Failure (List String) :=
  countries.foldlM (fun codes text =>
    match countryCode? text with
    | some code => .ok (insertSorted code codes)
    | none => .error (.validation s!"invalid country code '{text}'")) []

/-- A rule that bans requests from some countries. -/
def geoBlockRule (countries : List String) : Except Failure Rule := do
  let codes ← countryCodes countries
  if codes.isEmpty then throw (.validation "no countries to block")
  let listed := ", ".intercalate codes
  let shown := ", ".intercalate (codes.take 3) ++ if codes.length > 3 then "..." else ""
  return {
    name := s!"Geo-Blocking: Block {shown}"
    description := some s!"Block traffic from: {listed}"
    mode := .inband
    action := .ban
    joiner := .or
    conditions := codes.map fun code => ⟨"country_code", "equals", code⟩
    priority := 10 }

end Rampart

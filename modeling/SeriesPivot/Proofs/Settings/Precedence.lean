import SeriesPivot.Proofs.Json.Records
import SeriesPivot.Proofs.Text.Digits
import SeriesPivot.Settings.Load
import Mathlib.Logic.Function.Basic

/-!
# Which settings take precedence

A setting is the one of its variable, if it has one that is set to a text of its kind. Otherwise it is the one
of the first usual file that can be loaded, if that file has the setting, and otherwise its default.

* `Setting` names the settings, one by one, `Setting.default` is what a setting is by default, and
  `Setting.get` what it is among all settings.
* `Setting.In` says where a document has a setting, and `Setting.FromDocument` what a setting of the document
  is (`Setting.fromDocument_of_decode`).
* `Setting.Override` says what a variable sets, and `Setting.get_override` what a setting is with it.
* `Settings.Base` says which settings the usual files give.
* `Settings.loadFirst_precedence`: what the settings of the program are, whatever its files and variables.
-/

namespace SeriesPivot

open Json (Source Decoder)
open Json.Decode (Under Given given_of_record get_of_read eq_of_read)

/-! ### Settings and their groups -/

/-- A group of settings. -/
inductive SettingGroup where
  | store
  | api
  | query
  | logging
  deriving DecidableEq

namespace SettingGroup

/-- The settings of a group. -/
def Record : SettingGroup → Type
  | store => StoreSettings
  | api => ApiSettings
  | query => QuerySettings
  | logging => LogSettings

/-- The name of a group in documents. -/
def name : SettingGroup → String
  | store => "influx"
  | api => "api"
  | query => "query"
  | logging => "logging"

/-- The place of a group among all groups. -/
def position : SettingGroup → ℕ
  | store => 0
  | api => 1
  | query => 2
  | logging => 3

/-- A group from its fields. -/
def decode (surplus : Bool) : (g : SettingGroup) → Decoder g.Record
  | store => StoreSettings.decode surplus
  | api => ApiSettings.decode surplus
  | query => QuerySettings.decode surplus
  | logging => LogSettings.decode surplus

/-- A group of all settings. -/
def get : (g : SettingGroup) → Settings → g.Record
  | store => Settings.store
  | api => Settings.api
  | query => Settings.query
  | logging => Settings.logging

/-- A group is decoded from its own part of a document. -/
theorem given_of_decode (g : SettingGroup) {surplus : Bool} {document : Source} {s : Settings}
    (h : Settings.decode surplus document = .ok s) :
    Given g.name g.position (g.decode surplus) document (g.get s) (g.get .standard) := by
  cases g
  all_goals
    apply given_of_record (h := h)
    · rfl
    · rfl
    · simp
    · exact fun _ _ _ h => eq_of_read _ h fun _ => rfl
    · simp only [List.forall_mem_cons]
      refine ⟨?_, ?_, ?_, ?_, by simp⟩
      all_goals
        first
        | exact fun hne => absurd rfl hne
        | exact fun _ _ _ _ h => get_of_read _ h fun _ => rfl

end SettingGroup

/-- A setting. -/
inductive Setting where
  | url
  | database
  | username
  | password
  | timeoutMillis
  | host
  | port
  | corsOrigins
  | timeoutSeconds
  | defaultInterval
  | fillZero
  | level
  | format
  deriving DecidableEq

namespace Setting

/-- The group of a setting. -/
def group : Setting → SettingGroup
  | url | database | username | password | timeoutMillis => .store
  | host | port | corsOrigins | timeoutSeconds => .api
  | defaultInterval | fillZero => .query
  | level | format => .logging

/-- The name of a setting in its group. -/
def name : Setting → String
  | url => "url"
  | database => "database"
  | username => "username"
  | password => "password"
  | timeoutMillis => "request_timeout_ms"
  | host => "host"
  | port => "port"
  | corsOrigins => "cors_origins"
  | timeoutSeconds => "request_timeout_secs"
  | defaultInterval => "default_interval"
  | fillZero => "fill_zero"
  | level => "level"
  | format => "format"

/-- The place of a setting in its group. -/
def position : Setting → ℕ
  | url | host | defaultInterval | level => 0
  | database | port | fillZero | format => 1
  | username | corsOrigins => 2
  | password | timeoutSeconds => 3
  | timeoutMillis => 4

/-- The values of a setting. -/
def Value : Setting → Type
  | url | database | host | level | format => String
  | username | password => Option String
  | timeoutMillis | port | timeoutSeconds => ℕ
  | corsOrigins => List String
  | defaultInterval => Interval
  | fillZero => Bool

/-- A setting from its value in a document. -/
def decode : (x : Setting) → Decoder x.Value
  | url | database | host | level | format => Json.Decode.string
  | username | password => Json.Decode.optional Json.Decode.string
  | timeoutMillis | timeoutSeconds => Json.Decode.natBelow UInt64.size
  | port => Json.Decode.natBelow UInt16.size
  | corsOrigins => Json.Decode.listOf Json.Decode.string
  | defaultInterval => fun v => do return Interval.ofToken (← Json.Decode.string v)
  | fillZero => Json.Decode.bool

/-- A setting of its group. -/
def ofGroup : (x : Setting) → x.group.Record → x.Value
  | url => StoreSettings.url
  | database => StoreSettings.database
  | username => StoreSettings.username
  | password => StoreSettings.password
  | timeoutMillis => StoreSettings.timeoutMillis
  | host => ApiSettings.host
  | port => ApiSettings.port
  | corsOrigins => ApiSettings.corsOrigins
  | timeoutSeconds => ApiSettings.timeoutSeconds
  | defaultInterval => QuerySettings.defaultInterval
  | fillZero => QuerySettings.fillZero
  | level => LogSettings.level
  | format => LogSettings.format

/-- A setting of all settings. -/
def get (x : Setting) (s : Settings) : x.Value :=
  x.ofGroup (x.group.get s)

/-- What a setting is if nothing says what it is. -/
def default : (x : Setting) → x.Value
  | url => "http://localhost:8086"
  | database => "analytics"
  | username | password => none
  | timeoutMillis => (30000 : ℕ)
  | host => "0.0.0.0"
  | port => (8082 : ℕ)
  | corsOrigins => ([] : List String)
  | timeoutSeconds => (30 : ℕ)
  | defaultInterval => Interval.day
  | fillZero => true
  | level => "info"
  | format => "pretty"

/-- All settings together are what each of them is. -/
theorem ext {s t : Settings} (h : ∀ x : Setting, x.get s = x.get t) : s = t := by
  obtain ⟨⟨_, _, _, _, _⟩, ⟨_, _, _, _⟩, ⟨_, _⟩, ⟨_, _⟩⟩ := s
  obtain ⟨⟨_, _, _, _, _⟩, ⟨_, _, _, _⟩, ⟨_, _⟩, ⟨_, _⟩⟩ := t
  obtain rfl := h url
  obtain rfl := h database
  obtain rfl := h username
  obtain rfl := h password
  obtain rfl := h timeoutMillis
  obtain rfl := h host
  obtain rfl := h port
  obtain rfl := h corsOrigins
  obtain rfl := h timeoutSeconds
  obtain rfl := h defaultInterval
  obtain rfl := h fillZero
  obtain rfl := h level
  obtain rfl := h format
  rfl

theorem get_standard (x : Setting) : x.get .standard = x.default := by
  cases x <;> rfl

/-- A setting is decoded from its own part of its group. -/
theorem given_of_decode (x : Setting) {surplus : Bool} {source : Source} {r : x.group.Record}
    (h : x.group.decode surplus source = .ok r) :
    Given x.name x.position x.decode source (x.ofGroup r) (x.get .standard) := by
  cases x
  all_goals
    apply given_of_record (h := h)
    · rfl
    · rfl
    · simp
    · intro a v b h
      obtain ⟨t, ht, h⟩ := bind_eq_ok_iff.1 h
      cases h
      first
      | exact ht
      | exact bind_eq_ok_iff.2 ⟨t, ht, rfl⟩
    · repeat' refine List.forall_mem_cons.2 ⟨?_, ?_⟩
      all_goals
        first
        | exact fun hne => absurd rfl hne
        | exact fun _ _ _ _ h => get_of_read _ h fun _ => rfl
        | exact fun _ hf => absurd hf List.not_mem_nil

/-- Where a document has a setting: in its group, under its name. -/
def In (x : Setting) (document part : Source) : Prop :=
  ∃ group, Under x.group.name x.group.position document group ∧ Under x.name x.position group part

/-- What a setting of a document is: what is decoded from its part, or its default if it has none. -/
structure FromDocument (x : Setting) (document : Source) (value : x.Value) : Prop where
  present : ∀ part, x.In document part → x.decode part = .ok value
  absent : (∀ part, ¬ x.In document part) → value = x.default

theorem fromDocument_of_decode (x : Setting) {surplus : Bool} {document : Source} {s : Settings}
    (h : Settings.decode surplus document = .ok s) : x.FromDocument document (x.get s) := by
  have hgroup := x.group.given_of_decode h
  refine ⟨?_, fun hnone => ?_⟩
  · rintro part ⟨group, hunder, hpart⟩
    exact (x.given_of_decode (hgroup.present group hunder)).present part hpart
  · by_cases hsome : ∃ group, Under x.group.name x.group.position document group
    · obtain ⟨group, hunder⟩ := hsome
      have hsetting := x.given_of_decode (hgroup.present group hunder)
      exact (hsetting.absent fun part hpart => hnone part ⟨group, hunder, hpart⟩).trans x.get_standard
    · have hdefaults := hgroup.absent fun group hunder => hsome ⟨group, hunder⟩
      exact (congrArg x.ofGroup hdefaults).trans x.get_standard

/-! ### Variables -/

/-- The variable of a setting, for the settings that have one. -/
def variableName? : Setting → Option String
  | url => some "INFLUX_PROVIDER_URL"
  | database => some "INFLUX_PROVIDER_DATABASE"
  | username => some "INFLUX_PROVIDER_USERNAME"
  | password => some "INFLUX_PROVIDER_PASSWORD"
  | host => some "INFLUX_PROVIDER_API_HOST"
  | port => some "INFLUX_PROVIDER_API_PORT"
  | level => some "INFLUX_PROVIDER_LOG_LEVEL"
  | format => some "INFLUX_PROVIDER_LOG_FORMAT"
  | timeoutMillis | corsOrigins | timeoutSeconds | defaultInterval | fillZero => none

/-- What the text of a variable says: the text itself, or a port of 16 bits in decimal digits with or without
a plus sign. -/
def Says : (x : Setting) → String → x.Value → Prop
  | url, text, value | database, text, value | host, text, value | level, text, value
  | format, text, value => value = text
  | username, text, value | password, text, value => value = some text
  | port, text, (n : ℕ) =>
    n < UInt16.size ∧ ∃ cs, (text.toList = cs ∨ text.toList = '+' :: cs) ∧ Text.Spells cs n
  | timeoutMillis, _, _ | corsOrigins, _, _ | timeoutSeconds, _, _ | defaultInterval, _, _
  | fillZero, _, _ => False

/-- The variable of a setting is set and says what the setting is. -/
def Override (x : Setting) (env : Environment) (value : x.Value) : Prop :=
  ∃ name text, x.variableName? = some name ∧ env name = some text ∧ x.Says text value

/-- A variable sets one setting only. -/
theorem variableName?_injective {x y : Setting} {name : String} (hx : x.variableName? = some name)
    (hy : y.variableName? = some name) : x = y := by
  cases x <;> cases hx <;> revert hy <;> cases y <;> decide

/-- The value that the text of a variable is read as. -/
def read? : (x : Setting) → String → Option x.Value
  | url | database | host | level | format => some
  | username | password => fun text => some (some text)
  | port => Text.readNatBelow UInt16.size
  | timeoutMillis | corsOrigins | timeoutSeconds | defaultInterval | fillZero => fun _ => none

theorem says_iff {x : Setting} {text : String} {value : x.Value} :
    x.Says text value ↔ x.read? text = some value := by
  cases x
  case port => exact Text.readNatBelow_eq_some_iff.symm
  case timeoutMillis | corsOrigins | timeoutSeconds | defaultInterval | fillZero =>
    exact iff_of_false id nofun
  all_goals exact eq_comm.trans (Option.some_inj).symm

/-- What the variable of a setting says, if it is set to a text of its kind. -/
def said? (env : Environment) (x : Setting) : Option x.Value :=
  (x.variableName?.bind env).bind x.read?

theorem override_iff {env : Environment} {x : Setting} {value : x.Value} :
    x.Override env value ↔ x.said? env = some value := by
  simp only [Override, said?, says_iff, Option.bind_eq_some_iff]
  constructor
  · rintro ⟨name, text, hname, htext, hvalue⟩
    exact ⟨text, ⟨name, hname, htext⟩, hvalue⟩
  · rintro ⟨text, ⟨name, hname, htext⟩, hvalue⟩
    exact ⟨name, text, hname, htext, hvalue⟩

/-- A setting does not depend on other variables than its own. -/
theorem said?_congr {env env' : Environment} {x : Setting}
    (h : ∀ name, x.variableName? = some name → env name = env' name) : x.said? env = x.said? env' := by
  rw [said?, said?, Option.bind_congr h]

/-- A setting is what its variable says, or else what it is without it. -/
theorem get_override (env : Environment) (s : Settings) (x : Setting) :
    x.get (Settings.override env s) = (x.said? env).getD (x.get s) := by
  have hset : ∀ (o : Option String) (v : String), o.getD v = (o.bind some).getD v := fun o v => by
    cases o <;> rfl
  have hgiven : ∀ o v : Option String, o.or v = (o.bind fun s => some (some s)).getD v := fun o v => by
    cases o <;> rfl
  cases x
  case url | database | host | level | format => exact hset _ _
  case username | password => exact hgiven _ _
  all_goals rfl

end Setting

/-! ### Files -/

/-- A document has no more than one value of a setting. -/
theorem Setting.FromDocument.unique {x : Setting} {document : Source} {v w : x.Value}
    (hv : x.FromDocument document v) (hw : x.FromDocument document w) : v = w := by
  by_cases hsome : ∃ part, x.In document part
  · obtain ⟨part, hpart⟩ := hsome
    exact Except.ok.inj ((hv.present part hpart).symm.trans (hw.present part hpart))
  · have hnone : ∀ part, ¬ x.In document part := fun part hpart => hsome ⟨part, hpart⟩
    exact (hv.absent hnone).trans (hw.absent hnone).symm

namespace Settings

variable {files : Files} {paths : List String}

/-- A file can be loaded: it can be read, it is a document, and the settings that it has are of their
kinds. -/
def Loads (files : Files) (path : String) : Prop :=
  ∃ text document s, files path = .ok text ∧ Toml.source? text = some document ∧
    decode true document = .ok s

theorem load_eq_ok_iff {path : String} {s : Settings} : load files path = .ok s ↔
    ∃ text document, files path = .ok text ∧ Toml.source? text = some document ∧
      decode true document = .ok s := by
  unfold load
  cases files path with
  | error reason => simp
  | ok text =>
    have hread : ofToml? text = some s ↔
        ∃ document, Toml.source? text = some document ∧ decode true document = .ok s := by
      simp only [ofToml?, Option.bind_eq_some_iff, toOption_eq_some_iff]
    cases h : ofToml? text with
    | none => simpa [h] using hread
    | some t => simpa [h] using hread

theorem loads_iff {path : String} : Loads files path ↔ ∃ s, load files path = .ok s := by
  simp only [load_eq_ok_iff, Loads]
  constructor
  · rintro ⟨text, document, s, h⟩
    exact ⟨s, text, document, h⟩
  · rintro ⟨s, text, document, h⟩
    exact ⟨text, document, s, h⟩

/-- The settings that files give: those of the first file that can be loaded, whatever is wrong with the
files before it, with defaults for what its document does not have; or all defaults. -/
inductive Base (files : Files) (paths : List String) (base : Settings) : Prop where
  | file {before after : List String} {path text : String} {document : Source}
    (hsplit : paths = before ++ path :: after) (hbefore : ∀ p ∈ before, ¬ Loads files p)
    (hloads : Loads files path) (htext : files path = .ok text)
    (hdocument : Toml.source? text = some document)
    (hbase : ∀ x : Setting, x.FromDocument document (x.get base))
  | standard (hnone : ∀ p ∈ paths, ¬ Loads files p) (hbase : ∀ x : Setting, x.get base = x.default)

/-- The settings of the first file that can be loaded, or the defaults. -/
def found (files : Files) (paths : List String) : Settings :=
  (paths.findSome? fun path => (load files path).toOption).getD standard

theorem toOption_load_eq_none {path : String} (h : ¬ Loads files path) :
    (load files path).toOption = none := by
  rw [Option.eq_none_iff_forall_ne_some]
  intro s hs
  exact h (loads_iff.2 ⟨s, toOption_eq_some_iff.1 hs⟩)

theorem base_found (files : Files) (paths : List String) : Base files paths (found files paths) := by
  unfold found
  cases h : paths.findSome? fun path => (load files path).toOption with
  | none =>
    refine .standard (fun p hp hloads => ?_) Setting.get_standard
    obtain ⟨s, hs⟩ := loads_iff.1 hloads
    cases (List.findSome?_eq_none_iff.1 h p hp).symm.trans (toOption_eq_some_iff.2 hs)
  | some s =>
    obtain ⟨before, path, after, hsplit, hpath, hbefore⟩ := List.findSome?_eq_some_iff.1 h
    obtain ⟨text, document, htext, hdocument, hs⟩ := load_eq_ok_iff.1 (toOption_eq_some_iff.1 hpath)
    refine .file hsplit (fun p hp hloads => ?_) ⟨text, document, s, htext, hdocument, hs⟩ htext hdocument
      fun x => x.fromDocument_of_decode hs
    obtain ⟨t, ht⟩ := loads_iff.1 hloads
    cases (hbefore p hp).symm.trans (toOption_eq_some_iff.2 ht)

/-- Files give one collection of settings only. -/
theorem eq_found {base : Settings} (h : Base files paths base) : base = found files paths := by
  cases h with
  | standard hnone hbase =>
    have hall : paths.findSome? (fun path => (load files path).toOption) = none :=
      List.findSome?_eq_none_iff.2 fun p hp => toOption_load_eq_none (hnone p hp)
    rw [found, hall, Option.getD_none]
    exact Setting.ext fun x => (hbase x).trans x.get_standard.symm
  | @file before after path text document hsplit hbefore hloads htext hdocument hbase =>
    obtain ⟨s, hs⟩ := loads_iff.1 hloads
    have hnone : before.findSome? (fun path => (load files path).toOption) = none :=
      List.findSome?_eq_none_iff.2 fun p hp => toOption_load_eq_none (hbefore p hp)
    have hfound : found files paths = s := by
      rw [found, hsplit, List.findSome?_append, hnone, Option.none_or, List.findSome?_cons,
        toOption_eq_some_iff.2 hs]
      rfl
    obtain ⟨text', document', htext', hdocument', hdecode⟩ := load_eq_ok_iff.1 hs
    cases htext.symm.trans htext'
    cases hdocument.symm.trans hdocument'
    rw [hfound]
    exact Setting.ext fun x => (hbase x).unique (x.fromDocument_of_decode hdecode)

/-- Variables are put over what the files give. -/
theorem loadFirst_eq (directory : Option String) (env : Environment) (files : Files) :
    loadFirst directory env files = override env (found files (candidates directory)) := by
  have hload : (fun path => (loadWith env files path).toOption) =
      Option.map (override env) ∘ fun path => (load files path).toOption := by
    funext path
    change ((load files path).map (override env)).toOption = (load files path).toOption.map (override env)
    cases load files path <;> rfl
  rw [loadFirst, found, hload, ← List.map_findSome?, ofEnvironment, Option.getD_map]

/-- The settings of the program, whatever variables are set and whatever files there are: the file of the user,
the one of the system and the one at hand, looked at in this order, give one collection of settings, a setting
whose variable says what it is is that, and every other setting is what the files give. A variable changes no
setting but its own. -/
theorem loadFirst_precedence (directory : Option String) (env : Environment) (files : Files) :
    let paths := (directory.map (· ++ "/influx-provider/config.toml")).toList ++
      ["/etc/influx-provider/config.toml", "./config.toml"]
    (∃ base, (∀ s, Base files paths s ↔ s = base) ∧
      ∀ x : Setting,
        (∀ value, x.Override env value → x.get (loadFirst directory env files) = value) ∧
        ((∀ value, ¬ x.Override env value) → x.get (loadFirst directory env files) = x.get base)) ∧
    ∀ (x : Setting) (name : String), x.variableName? = some name → ∀ (text : Option String), ∀ y ≠ x,
      y.get (loadFirst directory (Function.update env name text) files) =
        y.get (loadFirst directory env files) := by
  intro paths
  have hpaths : candidates directory = paths := rfl
  constructor
  · refine ⟨found files paths, fun s => ⟨eq_found, ?_⟩, fun x => ?_⟩
    · rintro rfl
      exact base_found _ _
    · rw [loadFirst_eq, hpaths, Setting.get_override]
      refine ⟨fun value hvalue => ?_, fun hnone => ?_⟩
      · rw [Setting.override_iff.1 hvalue, Option.getD_some]
      · have hsaid : x.said? env = none :=
          Option.eq_none_iff_forall_ne_some.2 fun value hvalue => hnone value (Setting.override_iff.2 hvalue)
        rw [hsaid, Option.getD_none]
  · intro x name hname text y hne
    have hsaid : y.said? (Function.update env name text) = y.said? env := by
      refine Setting.said?_congr fun own hown => Function.update_of_ne ?_ _ _
      rintro rfl
      exact hne (Setting.variableName?_injective hown hname)
    rw [loadFirst_eq, loadFirst_eq, Setting.get_override, Setting.get_override, hsaid]

/-- The file of a user that breaks off, and a file of the system with a port. -/
def brokenUserFile : Files := fun path =>
  if path = "/root/.config/influx-provider/config.toml" then .ok "[influx"
  else if path = "/etc/influx-provider/config.toml" then .ok "[api]\nport = 80"
  else .error "missing"

/-- Variables for a port that is no number and for the level of the log. -/
def namedPort : Environment := fun name =>
  if name = "INFLUX_PROVIDER_API_PORT" then some "http"
  else if name = "INFLUX_PROVIDER_LOG_LEVEL" then some "debug"
  else none

theorem loadFirst_precedence_brokenUserFile :
    let loaded := loadFirst (some "/root/.config") namedPort brokenUserFile
    ¬ Loads brokenUserFile "/root/.config/influx-provider/config.toml" ∧
    Loads brokenUserFile "/etc/influx-provider/config.toml" ∧
    (∀ s, Base brokenUserFile ["/root/.config/influx-provider/config.toml",
        "/etc/influx-provider/config.toml", "./config.toml"] s ↔
      s = { standard with api := { ApiSettings.standard with port := 80 } }) ∧
    Setting.port.get loaded = (80 : ℕ) ∧ Setting.level.get loaded = "debug" ∧
    (∀ text, Setting.level.get (loadFirst (some "/root/.config")
      (Function.update namedPort "INFLUX_PROVIDER_API_PORT" text) brokenUserFile) = "debug") := by
  intro loaded
  have hbroken : load brokenUserFile "/root/.config/influx-provider/config.toml" =
      .error (.malformed "/root/.config/influx-provider/config.toml") := by decide +kernel
  have hvalid : load brokenUserFile "/etc/influx-provider/config.toml" =
      .ok { standard with api := { ApiSettings.standard with port := 80 } } := by decide +kernel
  have hfound : found brokenUserFile ["/root/.config/influx-provider/config.toml",
      "/etc/influx-provider/config.toml", "./config.toml"] =
      { standard with api := { ApiSettings.standard with port := 80 } } := by decide +kernel
  obtain ⟨⟨base, hbase, hsettings⟩, hframe⟩ :=
    loadFirst_precedence (some "/root/.config") namedPort brokenUserFile
  obtain rfl := (hbase _).1 (hfound ▸ base_found _ _)
  have hlevel : Setting.level.get loaded = "debug" :=
    (hsettings .level).1 "debug" ⟨_, "debug", rfl, rfl, rfl⟩
  have hunread : Setting.port.said? namedPort = none := by decide +kernel
  have hport : ∀ value, ¬ Setting.port.Override namedPort value := by
    intro value hvalue
    cases hunread.symm.trans (Setting.override_iff.1 hvalue)
  refine ⟨fun hloads => ?_, loads_iff.2 ⟨_, hvalid⟩, hbase, (hsettings .port).2 hport, hlevel,
    fun text => (hframe .port _ rfl text .level (by decide)).trans hlevel⟩
  obtain ⟨s, hs⟩ := loads_iff.1 hloads
  cases hbroken.symm.trans hs

end Settings

end SeriesPivot

import LiveQuery.Proofs.Arguments.Spelling

/-!
# Command lines for a query or a watch

`Options` are what a query or a watch can be told, and `Options.words` spells them: the name of the
endpoint, each option that is there, once, and the switch. `parse_words` says that the words can be
typed in any order behind the name of the command, and that what is read are the options again, with
the environment in place of the two that it can stand in for.
-/

namespace LiveQuery.Arguments

/-- What a query or a watch is told. An option that is none is left out. -/
structure Options where
  endpoint : EndpointName
  body : Option String
  limit : Option UInt32
  offset : Option UInt32
  json : Bool
  config : Option String
  apiUrl : Option String
  logLevel : Option String
  deriving DecidableEq, Repr

/-- An option as a word, if it is there. -/
def optional (word : α → Word) (a : Option α) : List Word := a.toList.map word

namespace Options

/-- The words that spell the options of a query. -/
def words (o : Options) : List Word :=
  [[.endpoint o.endpoint], if o.json then [.json] else [], optional .body o.body,
    optional .limit o.limit, optional .offset o.offset, optional .config o.config,
    optional .apiUrl o.apiUrl, optional .logLevel o.logLevel].flatten

/-- The words of a watch, which can also be told an interval and a number of fetches. -/
def watchWords (o : Options) (intervalMs count : Option UInt64) : List Word :=
  o.words ++ [optional .intervalMs intervalMs, optional .count count].flatten

/-- The connection that the options ask for in an environment. -/
def connection (o : Options) (env : Environment) : Connection where
  config := Bytes.ofString (o.config.getD "orion.toml")
  apiUrl := o.apiUrl.or (env.text? "ORION_API_URL")
  logLevel := o.logLevel.or (env.text? "ORION_LOG_LEVEL")

/-- The filter that the options ask for. -/
def filter (o : Options) : FilterFlags := ⟨o.body, o.limit, o.offset⟩

end Options

/-! ## What the environment fills in -/

section Environment

variable {env : Environment} {items : List Item} {g : Given}

/-- A variable that is not set to anything but a text. -/
def Readable (env : Environment) (name : String) : Prop :=
  ∀ value ∈ env.lookup name, value.toString?.isSome = true

theorem fromEnvironment_cons_of_none {i : Item} (h : i.standIn? = none) :
    g.fromEnvironment env (i :: items) = g.fromEnvironment env items := by
  simp only [Given.fromEnvironment, List.foldlM_cons, h, Option.bind_none, ite_self, ok_bind]

/-- An item that holds a text stays as it is; one that is not set takes the text of its variable. -/
theorem fromEnvironment_cons_text {i : Item} {key : String} {held : Option String}
    (put : Option String → Given) (hkey : i.standIn? = some key)
    (hhas : g.has i = held.isSome) (hself : g = put held)
    (haccept : ∀ value t, held = none → Given.text value = .ok t →
      g.accept i value = .ok (put (some t)))
    (h : held = none → Readable env key) :
    g.fromEnvironment env (i :: items) =
      (put (held.or (env.text? key))).fromEnvironment env items := by
  simp only [Given.fromEnvironment, List.foldlM_cons, hkey, Option.bind_some, hhas]
  cases held with
  | some t =>
    rw [Option.some_or, ← hself]
    rfl
  | none =>
    cases hlookup : env.lookup key with
    | none =>
      rw [Environment.text?, hlookup, Option.bind_none, Option.none_or, ← hself]
      rfl
    | some value =>
      obtain ⟨t, ht⟩ := Option.isSome_iff_exists.mp (h rfl value hlookup)
      have htext : Given.text value = .ok t := by
        rw [Given.text, ht]
      have hvariable : env.text? key = some t := by
        rw [Environment.text?, hlookup, Option.bind_some, ht]
      simp only [haccept value t rfl htext, hvariable, Option.none_or, Option.isSome_none,
        Bool.false_eq_true, if_false, ok_bind]

/-- The values with what the environment says about what is not set. -/
def completed (env : Environment) (g : Given) : Given :=
  { g with
    apiUrl := g.apiUrl.or (env.text? "ORION_API_URL")
    logLevel := g.logLevel.or (env.text? "ORION_LOG_LEVEL") }

theorem fromEnvironment_cons_apiUrl (h : g.apiUrl = none → Readable env "ORION_API_URL") :
    g.fromEnvironment env (.apiUrl :: items) =
      Given.fromEnvironment env items
        { g with apiUrl := g.apiUrl.or (env.text? "ORION_API_URL") } := by
  refine fromEnvironment_cons_text (fun a => { g with apiUrl := a }) rfl rfl rfl ?_ h
  intro value t hset ht
  simp only [Given.accept, Given.has, hset, Option.isSome_none, Bool.false_eq_true, if_false, ht,
    ok_bind]
  rfl

theorem fromEnvironment_cons_logLevel (h : g.logLevel = none → Readable env "ORION_LOG_LEVEL") :
    g.fromEnvironment env (.logLevel :: items) =
      Given.fromEnvironment env items
        { g with logLevel := g.logLevel.or (env.text? "ORION_LOG_LEVEL") } := by
  refine fromEnvironment_cons_text (fun a => { g with logLevel := a }) rfl rfl rfl ?_ h
  intro value t hset ht
  simp only [Given.accept, Given.has, hset, Option.isSome_none, Bool.false_eq_true, if_false, ht,
    ok_bind]
  rfl

theorem fromEnvironment_eq {c : Context} (hc : c ∈ [.query, .watch])
    (hurl : g.apiUrl = none → Readable env "ORION_API_URL")
    (hlevel : g.logLevel = none → Readable env "ORION_LOG_LEVEL") :
    g.fromEnvironment env c.items = .ok (completed env g) := by
  have hstandIns : g.fromEnvironment env [.apiUrl, .logLevel, .help] = .ok (completed env g) := by
    rw [fromEnvironment_cons_apiUrl hurl, fromEnvironment_cons_logLevel]
    · exact fromEnvironment_cons_of_none rfl
    · exact hlevel
  rcases List.mem_pair.mp hc with rfl | rfl
  · simp only [Context.items]
    iterate 5 rw [fromEnvironment_cons_of_none rfl]
    exact hstandIns
  · simp only [Context.items]
    iterate 7 rw [fromEnvironment_cons_of_none rfl]
    exact hstandIns

end Environment

/-! ## What the words set -/

section Words

variable {g : Given}

/-- An option sets what it says, and nothing if it is not there. -/
theorem foldl_optional {word : α → Word} (put : Option α → Given)
    (hset : ∀ a, (put none).set (word a) = put (some a)) (a : Option α) :
    (optional word a).foldl Given.set (put none) = put a := by
  cases a with
  | none => rfl
  | some a => exact hset a

/-- The values that the options stand for. -/
def Options.given (o : Options) (intervalMs count : Option UInt64) : Given where
  json := if o.json then some () else none
  force := none
  body := o.body
  limit := o.limit
  offset := o.offset
  config := o.config.map Bytes.ofString
  apiUrl := o.apiUrl
  logLevel := o.logLevel
  intervalMs := intervalMs.map UInt64.toNat
  count := count.map UInt64.toNat
  output := none
  endpoint := some o.endpoint
  shell := none

theorem Options.foldl_watchWords (o : Options) (intervalMs count : Option UInt64) :
    (o.watchWords intervalMs count).foldl Given.set .nothing = o.given intervalMs count := by
  obtain ⟨e, body, limit, offset, json, config, url, level⟩ := o
  have hjson : (if json then [Word.json] else []).foldl Given.set
      (Given.nothing.set (.endpoint e)) =
        given ⟨e, none, none, none, json, none, none, none⟩ none none := by
    cases json <;> rfl
  simp only [watchWords, words, List.foldl_append, List.foldl_flatten, List.foldl_cons,
    List.foldl_nil, hjson]
  rw [foldl_optional (fun a => given ⟨e, a, none, none, json, none, none, none⟩ none none)
      fun _ => rfl,
    foldl_optional (fun a => given ⟨e, body, a, none, json, none, none, none⟩ none none)
      fun _ => rfl,
    foldl_optional (fun a => given ⟨e, body, limit, a, json, none, none, none⟩ none none)
      fun _ => rfl,
    foldl_optional (fun a => given ⟨e, body, limit, offset, json, a, none, none⟩ none none)
      fun _ => rfl,
    foldl_optional (fun a => given ⟨e, body, limit, offset, json, config, a, none⟩ none none)
      fun _ => rfl,
    foldl_optional (fun a => given ⟨e, body, limit, offset, json, config, url, a⟩ none none)
      fun _ => rfl,
    foldl_optional (fun a => given ⟨e, body, limit, offset, json, config, url, level⟩ a none)
      fun _ => rfl,
    foldl_optional (fun a => given ⟨e, body, limit, offset, json, config, url, level⟩ intervalMs a)
      fun _ => rfl]

/-- The items of a query, in the order in which its words are listed. -/
def queryItems : List Item :=
  [.endpoint, .json, .body, .limit, .offset, .config, .apiUrl, .logLevel]

theorem sublist_optional (word : α → Word) {i : Item} (hword : ∀ a, (word a).item = i)
    (a : Option α) : ((optional word a).map Word.item).Sublist [i] := by
  cases a with
  | none => exact List.nil_sublist _
  | some a =>
    have hitem : (optional word (some a)).map Word.item = [i] := congrArg (fun j => [j]) (hword a)
    rw [hitem]

theorem sublist_flatten {segments : List (List Word)} {items : List Item}
    (h : List.Forall₂ (fun ws i => (ws.map Word.item).Sublist [i]) segments items) :
    (segments.flatten.map Word.item).Sublist items := by
  induction h with
  | nil => exact .refl _
  | cons hfirst _ ih =>
    rw [List.flatten_cons, List.map_append]
    exact hfirst.append ih

theorem Options.sublist_words (o : Options) : (o.words.map Word.item).Sublist queryItems := by
  have hjson : ((if o.json then [Word.json] else []).map Word.item).Sublist [.json] := by
    cases o.json
    · exact List.nil_sublist _
    · exact .refl _
  exact sublist_flatten <| .cons (.refl _) <| .cons hjson <|
    .cons (sublist_optional .body (fun _ => rfl) _) <|
    .cons (sublist_optional .limit (fun _ => rfl) _) <|
    .cons (sublist_optional .offset (fun _ => rfl) _) <|
    .cons (sublist_optional .config (fun _ => rfl) _) <|
    .cons (sublist_optional .apiUrl (fun _ => rfl) _) <|
    .cons (sublist_optional .logLevel (fun _ => rfl) _) .nil

/-- The words set different items. -/
theorem Options.sublist_watchWords (o : Options) (intervalMs count : Option UInt64) :
    ((o.watchWords intervalMs count).map Word.item).Sublist
      (queryItems ++ [.intervalMs, .count]) := by
  rw [watchWords, List.map_append]
  exact o.sublist_words.append <| sublist_flatten <|
    .cons (sublist_optional .intervalMs (fun _ => rfl) _) <|
    .cons (sublist_optional .count (fun _ => rfl) _) .nil

theorem Options.config_not_mem (o : Options) (h : o.config ≠ some "")
    (intervalMs count : Option UInt64) : .config "" ∉ o.watchWords intervalMs count := by
  simpa [watchWords, words, optional] using h

theorem Options.watchWords_none (o : Options) : o.watchWords none none = o.words :=
  List.append_nil _

/-- Words fit a context that has all their items. -/
theorem fits_of_sublist {c : Context} {items : List Item} {vs : List Word}
    (hitems : (vs.map Word.item).Sublist items)
    (hknown : ∀ i ∈ items, i ∈ c.items ∨ c.positional? = some i) (hconfig : .config "" ∉ vs) :
    ∀ w ∈ vs, w.Fits c := by
  intro w hw
  refine ⟨hknown w.item (hitems.subset (List.mem_map_of_mem hw)), ?_⟩
  rintro rfl
  exact hconfig hw

/-- Words that set different items are read as what they set and what the environment adds, in any
order. -/
theorem parse_of_perm {command : String} {c : Context}
    (hcommand : Context.root.enter? command = some c) (hc : c ∈ [.query, .watch])
    {ws vs : List Word} (hperm : ws.Perm vs) (hfits : ∀ w ∈ vs, w.Fits c)
    (hnodup : (vs.map Word.item).Nodup) (hgiven : vs.foldl Given.set .nothing = g)
    {env : Environment} (hurl : g.apiUrl = none → Readable env "ORION_API_URL")
    (hlevel : g.logLevel = none → Readable env "ORION_LOG_LEVEL") :
    parse env (Bytes.ofString command :: ws.map fun w => Bytes.ofString w.text) =
      (completed env g).command c := by
  have hfits' : ∀ w ∈ ws, w.Fits c := fun w hw => hfits w (hperm.subset hw)
  have hnodup' : (ws.map Word.item).Nodup := (hperm.map Word.item).nodup_iff.mpr hnodup
  rw [parse_of_nodup hcommand hc hfits' hnodup', foldl_set_perm hperm hnodup', hgiven,
    fromEnvironment_eq hc hurl hlevel]
  rfl

/-- The words of a query or of a watch, typed in any order behind the name of the command, are read as
the options that they spell. What is not typed is none, but for the settings file, which has a name
by default, and for the URL and the level, which the environment can say. -/
theorem parse_words (env : Environment) (o : Options) (intervalMs count : Option UInt64)
    (hconfig : o.config ≠ some "") (hurl : o.apiUrl = none → Readable env "ORION_API_URL")
    (hlevel : o.logLevel = none → Readable env "ORION_LOG_LEVEL") :
    (∀ ws : List Word, ws.Perm o.words →
      parse env (Bytes.ofString "query" :: ws.map fun w => Bytes.ofString w.text) =
        .ok (.query ⟨o.endpoint, o.filter, o.json, o.connection env⟩)) ∧
    (∀ ws : List Word, ws.Perm (o.watchWords intervalMs count) →
      parse env (Bytes.ofString "watch" :: ws.map fun w => Bytes.ofString w.text) =
        .ok (.watch ⟨o.endpoint, o.filter, intervalMs.map UInt64.toNat, count.map UInt64.toNat,
          o.json, o.connection env⟩)) := by
  have hswitch : (if o.json then some () else none).isSome = o.json := by
    cases o.json <;> rfl
  have hpath : (o.config.map Bytes.ofString).getD (Bytes.ofString defaultConfigPath) =
      Bytes.ofString (o.config.getD "orion.toml") := by
    cases o.config <;> rfl
  constructor
  · intro ws hws
    have hnamed : .config "" ∉ o.words := o.watchWords_none ▸ o.config_not_mem hconfig none none
    have hfits : ∀ w ∈ o.words, w.Fits .query := fits_of_sublist o.sublist_words (by decide) hnamed
    have hnodup : (o.words.map Word.item).Nodup := o.sublist_words.nodup (by decide)
    have hgiven : o.words.foldl Given.set .nothing = o.given none none := by
      rw [← o.watchWords_none, o.foldl_watchWords]
    rw [parse_of_perm rfl (by decide) hws hfits hnodup hgiven hurl hlevel]
    simp only [Given.command, completed, Options.given, Given.filter, Given.connection, hswitch,
      hpath]
    rfl
  · intro ws hws
    have hitems := o.sublist_watchWords intervalMs count
    have hfits : ∀ w ∈ o.watchWords intervalMs count, w.Fits .watch :=
      fits_of_sublist hitems (by decide) (o.config_not_mem hconfig intervalMs count)
    have hgiven := o.foldl_watchWords intervalMs count
    rw [parse_of_perm rfl (by decide) hws hfits (hitems.nodup (by decide)) hgiven hurl hlevel]
    simp only [Given.command, completed, Options.given, Given.filter, Given.connection, hswitch,
      hpath]
    rfl

/-- Values that are empty, hold equals signs or start with a hyphen, in no order, with an environment
that says the URL. -/
def shuffled : Options where
  endpoint := .flowRuns
  body := some "--json=1=2"
  limit := some 0xFFFFFFFF
  offset := none
  json := true
  config := some "-a=b.toml"
  apiUrl := none
  logLevel := some ""

/-- An environment that says the URL. -/
def urlVariable : Environment := [("ORION_API_URL", Bytes.ofString "http://ö")]

theorem readable_urlVariable : Readable urlVariable "ORION_API_URL" := by
  rintro value ⟨⟩
  rw [Bytes.toString?_ofString]
  rfl

theorem connection_shuffled : shuffled.connection urlVariable =
    ⟨Bytes.ofString "-a=b.toml", some "http://ö", some ""⟩ := by
  have hvariable : Environment.text? urlVariable "ORION_API_URL" = some "http://ö" :=
    Bytes.toString?_ofString "http://ö"
  rw [Options.connection, hvariable]
  rfl

theorem parse_words_shuffled :
    shuffled.config ≠ some "" ∧
    (shuffled.apiUrl = none → Readable urlVariable "ORION_API_URL") ∧
    (shuffled.logLevel = none → Readable urlVariable "ORION_LOG_LEVEL") ∧
    parse urlVariable (["query", "--log-level=", "--limit=4294967295", "flow_runs", "--json",
        "--config=-a=b.toml", "--body=--json=1=2"].map Bytes.ofString) =
      .ok (.query ⟨.flowRuns, ⟨some "--json=1=2", some 0xFFFFFFFF, none⟩, true,
        ⟨Bytes.ofString "-a=b.toml", some "http://ö", some ""⟩⟩) ∧
    parse urlVariable (["watch", "--count=0", "--log-level=", "--limit=4294967295", "flow_runs",
        "--json", "--config=-a=b.toml", "--body=--json=1=2"].map Bytes.ofString) =
      .ok (.watch ⟨.flowRuns, ⟨some "--json=1=2", some 0xFFFFFFFF, none⟩, none, some 0, true,
        ⟨Bytes.ofString "-a=b.toml", some "http://ö", some ""⟩⟩) := by
  have hconfig : shuffled.config ≠ some "" := by decide
  have hlevel : shuffled.logLevel = none → Readable urlVariable "ORION_LOG_LEVEL" := nofun
  obtain ⟨hquery, hwatch⟩ := parse_words urlVariable shuffled none (some 0) hconfig
    (fun _ => readable_urlVariable) hlevel
  rw [connection_shuffled] at hquery hwatch
  refine ⟨hconfig, fun _ => readable_urlVariable, hlevel, ?_, ?_⟩
  · exact hquery [.logLevel "", .limit 0xFFFFFFFF, .endpoint .flowRuns, .json,
      .config "-a=b.toml", .body "--json=1=2"] (by decide)
  · exact hwatch [.count 0, .logLevel "", .limit 0xFFFFFFFF, .endpoint .flowRuns, .json,
      .config "-a=b.toml", .body "--json=1=2"] (by decide)

end Words

end LiveQuery.Arguments

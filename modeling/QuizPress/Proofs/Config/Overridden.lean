import QuizPress.Proofs.Config.Load
import QuizPress.Proofs.Files.Tree

/-! Settings of the caller against those of the file: what the caller sets makes what the file says there
irrelevant, but for a variable without a value in its base URL. The variables are replaced before
anything is overridden. -/
namespace QuizPress.Config
open Text Files

/-- The settings file of a run, with the path it is known by and the table it holds. -/
inductive SettingsFile (tree : Tree) (cwd : Location) : Option String → String → Toml.Table → Prop where
  | named {path : String} {octets : List UInt8} {table : Toml.Table} :
      tree.read cwd path = .ok octets → tableOf? octets = some table →
      SettingsFile tree cwd (some path) path table
  | discovered {location : Location} {octets : List UInt8} {table : Toml.Table} :
      discover? tree cwd = some location → tree.readAt location = .ok octets →
      tableOf? octets = some table → SettingsFile tree cwd none (Path.join location) table

/-- Two tables hold the same settings, but for those that the caller sets. -/
structure SameBeside (overrides : Overrides) (table table' : Toml.Table) : Prop where
  baseUrl : overrides.baseUrl = none →
    written? table "html" "base_url" = written? table' "html" "base_url"
  layout : overrides.layout = none → written? table "html" "layout" = written? table' "html" "layout"
  answerSlots : overrides.answerSlots = none →
    written? table "tex" "answer_slots" = written? table' "tex" "answer_slots"
  format : overrides.format = none → written? table "output" "format" = written? table' "output" "format"

/-- The first variable without a value in the base URL of a table. -/
def unset? (environment : Environment) (table : Toml.Table) : Option String :=
  match written? table "html" "base_url" with
  | some (.string text) =>
    match expand environment text with
    | .ok _ => none
    | .error name => some name
  | _ => none

section
variable {tree tree' : Tree} {cwd : Location} {environment : Environment} {path : Option String}
  {overrides : Overrides} {name missing : String} {table table' : Toml.Table}
  {read config config' : Config}

theorem Chosen.unique {α : Type} {normal : α → α} {given : Option α}
    {written written' : Option Toml.Value} {Reads : Toml.Value → α → Prop} {default value value' : α}
    (hreads : ∀ entry value value', Reads entry value → Reads entry value' → value = value')
    (hsame : given = none → written = written')
    (h : Chosen normal given written Reads default value)
    (h' : Chosen normal given written' Reads default value') : value = value' := by
  cases h with
  | byCaller hgiven =>
    cases h' with
    | byCaller hgiven' =>
      cases hgiven.symm.trans hgiven'
      rfl
    | byFile hnone | byDefault hnone => cases hgiven.symm.trans hnone
  | byFile hnone hwritten hread =>
    rw [hsame hnone] at hwritten
    cases h' with
    | byCaller hgiven' => cases hnone.symm.trans hgiven'
    | byFile _ hwritten' hread' =>
      cases hwritten.symm.trans hwritten'
      rw [hreads _ _ _ hread hread']
    | byDefault _ hwritten' => cases hwritten.symm.trans hwritten'
  | byDefault hnone hwritten =>
    rw [hsame hnone] at hwritten
    cases h' with
    | byCaller hgiven' => cases hnone.symm.trans hgiven'
    | byFile _ hwritten' => cases hwritten.symm.trans hwritten'
    | byDefault => rfl

private theorem string_unique (entry : Toml.Value) (text text' : String) (h : entry = .string text)
    (h' : entry = .string text') : text = text' := by
  cases h.symm.trans h'
  rfl

/-- Settings from one path are determined by what the caller sets and the table says beside it. -/
theorem Origins.unique {url neat : String → String}
    (hsame : SameBeside overrides table table')
    (h : Origins url neat environment overrides table config)
    (h' : Origins url neat environment overrides table' config') (hpath : config.path = config'.path) :
    config = config' := by
  have hbaseUrl : config.baseUrl = config'.baseUrl := by
    apply Chosen.unique _ hsame.baseUrl h.baseUrl h'.baseUrl
    rintro entry value value' ⟨text, rfl, hvalue⟩ ⟨_, htext, hvalue'⟩
    cases htext
    rw [hvalue] at hvalue'
    exact Except.ok.inj hvalue'
  have hlayout := Chosen.unique string_unique hsame.layout h.layout h'.layout
  have hformat := Chosen.unique string_unique hsame.format h.format h'.format
  have hanswerSlots : config.answerSlots = config'.answerSlots := by
    apply Chosen.unique _ hsame.answerSlots h.answerSlots h'.answerSlots
    rintro entry value value' rfl hvalue'
    exact Int.ofNat.inj (Toml.Value.integer.inj hvalue')
  cases config
  cases config'
  cases hbaseUrl
  cases hlayout
  cases hanswerSlots
  cases hformat
  cases hpath
  rfl

theorem unset_eq_some (h : unset? environment table = some missing) :
    ∃ text, written? table "html" "base_url" = some (.string text) ∧
      expand environment text = .error missing := by
  unfold unset? at h
  split at h
  · rename_i text hwritten
    refine ⟨text, hwritten, ?_⟩
    split at h
    · cases h
    · rename_i hexpand
      rw [hexpand, Option.some.inj h]
  · cases h

theorem expanded_of_unset (hread : ofTable? table = some read)
    (hunset : unset? environment table = some missing) :
    read.expanded environment = .error (.unset missing) := by
  obtain ⟨text, hwritten, hexpand⟩ := unset_eq_some hunset
  have hurl : read.baseUrl = text := Chosen.unique string_unique (fun _ => rfl)
    (taken_table hread).baseUrl (.byFile rfl hwritten rfl)
  rw [Config.expanded, hurl, hexpand]

theorem expanded_of_set (hread : ofTable? table = some read) (hset : unset? environment table = none) :
    ∃ config, read.expanded environment = .ok config := by
  have hbaseUrl := (taken_table hread).baseUrl
  have hexpand : ∃ value, expand environment read.baseUrl = .ok value := by
    generalize read.baseUrl = url at hbaseUrl
    cases hbaseUrl with
    | byCaller h => cases h
    | @byFile entry text _ hwritten hentry =>
      rw [unset?, hwritten, hentry] at hset
      cases hexpand : expand environment text with
      | ok value => exact ⟨value, hexpand⟩
      | error name => simp only [hexpand, reduceCtorEq] at hset
    | byDefault => exact ⟨_, congrArg (Except.map _) (expandChars_plain environment (by decide))⟩
  obtain ⟨value, hvalue⟩ := hexpand
  exact ⟨_, by rw [Config.expanded, hvalue]⟩

theorem ofOctets_of_table {octets : List UInt8} (htable : tableOf? octets = some table)
    (hread : ofTable? table = some read) : ofOctets environment name octets =
      (read.expanded environment).map fun config => { config with path := name } := by
  rw [tableOf?] at htable
  obtain ⟨document, hdocument, htable⟩ := Option.bind_eq_some_iff.1 htable
  rw [ofOctets, hdocument]
  simp only [htable, Option.bind_some, hread]

theorem SettingsFile.fromFile_eq (h : SettingsFile tree cwd path name table)
    (hread : ofTable? table = some read) : fromFile tree cwd environment path =
      (read.expanded environment).map fun config => { config with path := name } := by
  cases h with
  | named hoctets htable =>
    -- what is read is there
    have hpresent : tree.isPresent cwd name = true := by
      rw [Tree.isPresent, Tree.status_of_read hoctets]
      rfl
    simp only [fromFile, hpresent, if_true, hoctets]
    exact ofOctets_of_table htable hread
  | discovered hlocation hentry htable =>
    simp only [fromFile, hlocation, hentry]
    exact ofOctets_of_table htable hread

theorem SettingsFile.load_of_unset (h : SettingsFile tree cwd path name table)
    (hread : ofTable? table = some read) (hunset : unset? environment table = some missing) :
    load tree cwd environment path overrides = .error (.unset missing) := by
  rw [load, h.fromFile_eq hread, expanded_of_unset hread hunset]
  rfl

theorem SettingsFile.load_of_set (h : SettingsFile tree cwd path name table)
    (hread : ofTable? table = some read) (hset : unset? environment table = none)
    (overrides : Overrides) :
    ∃ config, Origins id id environment {} table config ∧ config.path = some name ∧
      load tree cwd environment path overrides = config.settle overrides := by
  obtain ⟨config, hconfig⟩ := expanded_of_set hread hset
  refine ⟨{ config with path := name }, (origins_table hread hconfig).withPath name, rfl, ?_⟩
  rw [load, h.fromFile_eq hread, hconfig]
  simp only [Except.map, bind, Except.bind]

theorem settle_ne_unset : config.settle overrides ≠ .error (.unset missing) := by
  unfold settle validate
  split <;> simp

/-- A variable without a value in the base URL of the file is an error, whether or not the caller sets a
base URL. Nothing else that the caller sets matters in the file: two files at one path that hold the same
settings beside it give the same outcome if and only if they have the same such variable, or none. -/
theorem load_overridden (environment : Environment) (h : SettingsFile tree cwd path name table)
    (h' : SettingsFile tree' cwd path name table') (hread : (ofTable? table).isSome)
    (hread' : (ofTable? table').isSome) (hsame : SameBeside overrides table table') :
    (load tree cwd environment path overrides = load tree' cwd environment path overrides ↔
        unset? environment table = unset? environment table') ∧
      (overrides.baseUrl = none →
        load tree cwd environment path overrides = load tree' cwd environment path overrides) ∧
      ∀ missing, unset? environment table = some missing →
        load tree cwd environment path overrides = .error (.unset missing) := by
  obtain ⟨read, hread⟩ := Option.isSome_iff_exists.1 hread
  obtain ⟨read', hread'⟩ := Option.isSome_iff_exists.1 hread'
  have hiff : load tree cwd environment path overrides = load tree' cwd environment path overrides ↔
      unset? environment table = unset? environment table' := by
    cases hunset : unset? environment table with
    | some missing =>
      rw [h.load_of_unset hread hunset]
      cases hunset' : unset? environment table' with
      | some missing' =>
        rw [h'.load_of_unset hread' hunset']
        simp
      | none =>
        obtain ⟨config', -, -, hload'⟩ := h'.load_of_set hread' hunset' overrides
        rw [hload']
        simpa using Ne.symm settle_ne_unset
    | none =>
      obtain ⟨config, ho, hpath, hload⟩ := h.load_of_set hread hunset overrides
      rw [hload]
      cases hunset' : unset? environment table' with
      | some missing' =>
        rw [h'.load_of_unset hread' hunset']
        simpa using settle_ne_unset
      | none =>
        obtain ⟨config', ho', hpath', hload'⟩ := h'.load_of_set hread' hunset' overrides
        -- what is settled are the overridden values, of which each has one origin in both
        have hsettled : (config.override overrides).normalize = (config'.override overrides).normalize :=
          (ho.override overrides).unique hsame (ho'.override overrides) (hpath.trans hpath'.symm)
        rw [hload', settle, settle, hsettled]
        simp
  refine ⟨hiff, fun hnone => hiff.2 ?_, fun missing => h.load_of_unset hread⟩
  rw [unset?, unset?, hsame.baseUrl hnone]

end

/-- Two files whose settings a caller sets all but for the format. Only the variable of the one matters,
and only where it has no value. -/
theorem load_overridden_variable :
    let octets := encode "[html]\nbase_url = '$\x7bASSETS\x7d'\nlayout = ' '\n"
    let octets' := encode "[html]\nlayout = 'course'\n[tex]\nanswer_slots = 0\n"
    let tree : Tree := { entries := [(["mq.toml"], .file octets)] }
    let tree' : Tree := { entries := [(["mq.toml"], .file octets')] }
    let table := (tableOf? octets).getD []
    let table' := (tableOf? octets').getD []
    let path := some "mq.toml"
    let overrides : Overrides := { baseUrl := some "/x", layout := some "course", answerSlots := some 6 }
    SettingsFile tree [] path "mq.toml" table ∧ SettingsFile tree' [] path "mq.toml" table' ∧
      (ofTable? table).isSome ∧ (ofTable? table').isSome ∧ SameBeside overrides table table' ∧
      load tree [] [] path overrides = .error (.unset "ASSETS") ∧
      load tree [] [] path overrides ≠ load tree' [] [] path overrides ∧
      load tree [] [("ASSETS", "/q")] path overrides =
        load tree' [] [("ASSETS", "/q")] path overrides := by
  intro octets octets' tree tree' table table' path overrides
  have hfile (octets : List UInt8) (h : (tableOf? octets).isSome) :
      SettingsFile { entries := [(["mq.toml"], .file octets)] } [] path "mq.toml"
        ((tableOf? octets).getD []) := by
    obtain ⟨table, htable⟩ := Option.isSome_iff_exists.1 h
    rw [htable]
    exact .named rfl htable
  have h : SettingsFile tree [] path "mq.toml" table := hfile octets (by decide +kernel)
  have h' : SettingsFile tree' [] path "mq.toml" table' := hfile octets' (by decide +kernel)
  have hread : (ofTable? table).isSome := by decide +kernel
  have hread' : (ofTable? table').isSome := by decide +kernel
  have hformat : (written? table "output" "format").isNone := by decide +kernel
  have hformat' : (written? table' "output" "format").isNone := by decide +kernel
  have hsame : SameBeside overrides table table' :=
    ⟨nofun, nofun, nofun, fun _ => (Option.isNone_iff_eq_none.1 hformat).trans
      (Option.isNone_iff_eq_none.1 hformat').symm⟩
  have hmissing : unset? [] table = some "ASSETS" := by decide +kernel
  obtain ⟨hunset, -, herror⟩ := load_overridden [] h h' hread hread' hsame
  obtain ⟨hset, -, -⟩ := load_overridden [("ASSETS", "/q")] h h' hread hread' hsame
  refine ⟨h, h', hread, hread', hsame, herror _ hmissing, ?_, hset.2 (by decide +kernel)⟩
  rw [Ne, hunset, hmissing]
  decide +kernel

end QuizPress.Config

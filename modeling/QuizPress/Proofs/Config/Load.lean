import QuizPress.Config.Load
import QuizPress.Proofs.Except
import QuizPress.Proofs.Text

/-! Settings as a run loads them: normal and valid, and each value of the first origin that has one. -/
namespace QuizPress.Config
open Text Files

/-- The empty URL, or one with a single slash at its end. -/
def SingleSlash (url : String) : Prop :=
  url = "" ∨ ∃ front : List Char, front.getLast? ≠ some '/' ∧ url = .ofList (front ++ ['/'])

/-- A name that neither begins nor ends with a blank. -/
structure Neat (name : String) : Prop where
  nonempty : name ≠ ""
  first : ∀ c, name.toList.head? = some c → isBlank c = false
  last : ∀ c, name.toList.getLast? = some c → isBlank c = false

theorem last_dropSlashes (url : List Char) : (dropSlashes url).getLast? ≠ some '/' := by
  intro h
  have hn := List.head?_dropWhile_not (· == '/') url.reverse
  rw [dropSlashes, List.getLast?_reverse] at h
  rw [h] at hn
  cases hn

theorem dropSlashes_concat {front : List Char} (h : front.getLast? ≠ some '/') :
    dropSlashes (front ++ ['/']) = front := by
  rw [dropSlashes, List.reverse_append, List.reverse_singleton, List.singleton_append,
    List.dropWhile_cons_of_pos rfl]
  cases hr : front.reverse with
  | nil => rw [List.reverse_eq_nil_iff.1 hr]; rfl
  | cons c cs =>
    -- no slash is dropped but the one that was added
    have hc : c ≠ '/' := by
      rintro rfl
      rw [← List.head?_reverse, hr] at h
      exact h rfl
    rw [List.dropWhile_cons_of_neg (by simpa using hc), ← hr, List.reverse_reverse]

theorem singleSlash_normalUrl (url : String) : SingleSlash (normalUrl url) := by
  unfold normalUrl
  split
  · exact .inl rfl
  · exact .inr ⟨_, last_dropSlashes url.toList, rfl⟩

theorem SingleSlash.normalUrl_eq {url : String} (h : SingleSlash url) : normalUrl url = url := by
  rcases h with rfl | ⟨front, hfront, rfl⟩
  · rfl
  · rw [normalUrl, if_neg (by simp), String.toList_ofList, dropSlashes_concat hfront]

theorem normalize_normalize (config : Config) : config.normalize.normalize = config.normalize := by
  simp only [normalize, (singleSlash_normalUrl config.baseUrl).normalUrl_eq, trim_trim]

theorem neat_trim {name : String} (h : trim name ≠ "") : Neat (trim name) where
  nonempty := h
  first c hc := by
    rw [trim, String.toList_ofList] at hc
    exact not_isBlank_head_trimmed hc
  last c hc := by
    rw [trim, String.toList_ofList] at hc
    exact not_isBlank_last_trimmed hc

/-- Settings without a defect. -/
theorem defect_eq_none {config : Config} : config.defect? = none ↔
    trim config.layout ≠ "" ∧ trim config.format ≠ "" ∧
      1 ≤ config.answerSlots ∧ config.answerSlots ≤ maxSlots := by
  unfold defect?
  repeat' split
  all_goals simp_all <;> omega

theorem validate_eq_ok {config valid : Config} :
    config.validate = .ok valid ↔ config.defect? = none ∧ config = valid := by
  unfold validate
  cases config.defect? <;> simp

/-- Where a value comes from: from the caller, else from the settings file, where it is read off what is
written there, else from the defaults. What the caller or the file says is put in normal form. -/
inductive Chosen {α : Type} (normal : α → α) (given : Option α) (written : Option Toml.Value)
    (Reads : Toml.Value → α → Prop) (default : α) : α → Prop where
  | byCaller {value : α} : given = some value → Chosen normal given written Reads default (normal value)
  | byFile {entry : Toml.Value} {value : α} : given = none → written = some entry → Reads entry value →
      Chosen normal given written Reads default (normal value)
  | byDefault : given = none → written = none → Chosen normal given written Reads default default

def written? (table : Toml.Table) (sectionName name : String) : Option Toml.Value :=
  (sectionOf? table sectionName).bind (·.lookup name)

/-- The origins of settings that have such normal forms of URLs and names. -/
structure Origins (url name : String → String) (environment : Environment) (overrides : Overrides)
    (table : Toml.Table) (config : Config) : Prop where
  baseUrl : Chosen url overrides.baseUrl (written? table "html" "base_url")
    (fun entry value => ∃ text, entry = .string text ∧ expand environment text = .ok value)
    "/MathQuiz/" config.baseUrl
  layout : Chosen name overrides.layout (written? table "html" "layout")
    (fun entry value => entry = .string value) "standard" config.layout
  answerSlots : Chosen id overrides.answerSlots (written? table "tex" "answer_slots")
    (fun entry (value : Nat) => entry = .integer value) 4 config.answerSlots
  format : Chosen name overrides.format (written? table "output" "format")
    (fun entry value => entry = .string value) "html" config.format

def tableOf? (octets : List UInt8) : Option Toml.Table :=
  (strict? (decode octets)).bind Toml.read?

inductive Settings (tree : Tree) (cwd : Location) : Option String → Toml.Table → Prop where
  | named {path : String} {octets : List UInt8} {table : Toml.Table} :
      tree.read cwd path = .ok octets → tableOf? octets = some table →
      Settings tree cwd (some path) table
  | discovered {location : Location} {octets : List UInt8} {table : Toml.Table} :
      discover? tree cwd = some location → tree.readAt location = .ok octets →
      tableOf? octets = some table → Settings tree cwd none table
  | absent : discover? tree cwd = none → Settings tree cwd none []

/-- What is taken from the file or from the defaults is still to be overridden. -/
theorem Chosen.override {α : Type} {normal : α → α} {written : Option Toml.Value}
    {Reads : Toml.Value → α → Prop} {default value : α} (h : Chosen id none written Reads default value)
    (given : Option α) (hdefault : normal default = default) :
    Chosen normal given written Reads default (normal (given.getD value)) := by
  cases given with
  | some value => exact .byCaller rfl
  | none =>
    cases h with
    | byCaller h => cases h
    | byFile _ hwritten hreads => exact .byFile rfl hwritten hreads
    | byDefault _ hwritten =>
      rw [Option.getD_none, hdefault]
      exact .byDefault rfl hwritten

theorem Origins.override {environment : Environment} {table : Toml.Table} {config : Config}
    (h : Origins id id environment {} table config) (overrides : Overrides) :
    Origins normalUrl trim environment overrides table (config.override overrides).normalize where
  baseUrl := h.baseUrl.override overrides.baseUrl (by decide)
  layout := h.layout.override overrides.layout (by decide)
  answerSlots := h.answerSlots.override overrides.answerSlots rfl
  format := h.format.override overrides.format (by decide)

/-- A text without dollar signs stands for itself. -/
theorem expandChars_plain (environment : Environment) {text : List Char} (h : '$' ∉ text) :
    expandChars environment text = .ok text := by
  induction text with
  | nil => rw [expandChars]
  | cons c cs ih =>
    simp only [List.mem_cons, not_or] at h
    have hc : c ≠ '$' := fun hc => h.1 hc.symm
    rw [expandChars, ih h.2]
    · rfl
    · exact fun _ he => absurd he hc
    · exact fun _ he => absurd he hc
    · exact fun he => absurd he hc

theorem chosen_text {table : Toml.Table} {name default value : String}
    (h : text? table name default = some value) :
    Chosen id none (table.lookup name) (fun entry value => entry = .string value) default value := by
  unfold text? at h
  split at h
  · rename_i hw
    cases h
    exact .byDefault rfl hw
  · rename_i hw
    cases h
    exact .byFile rfl hw rfl
  · cases h

theorem chosen_count {table : Toml.Table} {name : String} {default value : Nat}
    (h : count? table name default = some value) :
    Chosen id none (table.lookup name) (fun entry (value : Nat) => entry = .integer value)
      default value := by
  unfold count? at h
  split at h
  · rename_i hw
    cases h
    exact .byDefault rfl hw
  · rename_i hw
    split at h
    · rename_i hn
      cases h
      exact .byFile rfl hw (congrArg Toml.Value.integer (Int.toNat_of_nonneg hn.1).symm)
    · cases h
  · cases h

/-- A URL of the file is expanded; the default has no variables. -/
theorem Chosen.expanded {environment : Environment} {written : Option Toml.Value}
    {text value : String}
    (h : Chosen id none written (fun entry text => entry = .string text) "/MathQuiz/" text)
    (hexpand : expand environment text = .ok value) :
    Chosen id none written
      (fun entry value => ∃ text, entry = .string text ∧ expand environment text = .ok value)
      "/MathQuiz/" value := by
  cases h with
  | byCaller h => cases h
  | byFile _ hwritten hreads => exact .byFile rfl hwritten ⟨_, hreads, hexpand⟩
  | byDefault _ hwritten =>
    have hplain : expandChars environment "/MathQuiz/".toList = _ :=
      expandChars_plain environment (by decide)
    rw [expand, hplain] at hexpand
    cases hexpand
    exact .byDefault rfl hwritten

/-- What settings take from a table, before the variables of the URL are replaced. -/
structure Taken (table : Toml.Table) (read : Config) : Prop where
  baseUrl : Chosen id none (written? table "html" "base_url") (fun entry value => entry = .string value)
    "/MathQuiz/" read.baseUrl
  layout : Chosen id none (written? table "html" "layout") (fun entry value => entry = .string value)
    "standard" read.layout
  answerSlots : Chosen id none (written? table "tex" "answer_slots")
    (fun entry (value : Nat) => entry = .integer value) 4 read.answerSlots
  format : Chosen id none (written? table "output" "format") (fun entry value => entry = .string value)
    "html" read.format

theorem taken_table {table : Toml.Table} {read : Config} (hread : ofTable? table = some read) :
    Taken table read := by
  unfold ofTable? at hread
  simp only [Option.bind_eq_bind, Option.bind_eq_some_iff] at hread
  obtain ⟨html, hhtml, tex, htex, output, houtput, hread⟩ := hread
  -- a number that is too great beside the sections
  split at hread
  · cases hread
  simp only [Option.bind_eq_some_iff] at hread
  obtain ⟨baseUrl, hbaseUrl, layout, hlayout, answerSlots, hanswerSlots, format, hformat, hread⟩ :=
    hread
  cases hread
  exact {
    baseUrl := by
      rw [written?, hhtml]
      exact chosen_text hbaseUrl
    layout := by
      rw [written?, hhtml]
      exact chosen_text hlayout
    answerSlots := by
      rw [written?, htex]
      exact chosen_count hanswerSlots
    format := by
      rw [written?, houtput]
      exact chosen_text hformat }

theorem origins_table {table : Toml.Table} {read config : Config} {environment : Environment}
    (hread : ofTable? table = some read) (hexpanded : read.expanded environment = .ok config) :
    Origins id id environment {} table config := by
  have htaken := taken_table hread
  unfold Config.expanded at hexpanded
  split at hexpanded
  · rename_i hexpand
    cases hexpanded
    exact ⟨htaken.baseUrl.expanded hexpand, htaken.layout, htaken.answerSlots, htaken.format⟩
  · cases hexpanded

theorem origins_default (environment : Environment) : Origins id id environment {} [] {} where
  baseUrl := .byDefault rfl rfl
  layout := .byDefault rfl rfl
  answerSlots := .byDefault rfl rfl
  format := .byDefault rfl rfl

theorem Origins.withPath {url name : String → String} {environment : Environment}
    {overrides : Overrides} {table : Toml.Table} {config : Config}
    (h : Origins url name environment overrides table config) (path : Option String) :
    Origins url name environment overrides table { config with path } :=
  ⟨h.baseUrl, h.layout, h.answerSlots, h.format⟩

theorem origins_octets {environment : Environment} {path : String} {octets : List UInt8}
    {config : Config} (h : ofOctets environment path octets = .ok config) :
    ∃ table, tableOf? octets = some table ∧ Origins id id environment {} table config := by
  unfold ofOctets at h
  split at h
  · cases h
  rename_i document hdocument
  split at h
  · cases h
  rename_i read hread
  obtain ⟨table, htable, hread⟩ := Option.bind_eq_some_iff.1 hread
  refine ⟨table, by rw [tableOf?, hdocument]; exact htable, ?_⟩
  cases hexpanded : read.expanded environment with
  | error error => rw [hexpanded] at h; cases h
  | ok expanded =>
    rw [hexpanded] at h
    cases h
    exact (origins_table hread hexpanded).withPath path

theorem origins_fromFile {tree : Tree} {cwd : Location} {environment : Environment}
    {path : Option String} {config : Config} (h : fromFile tree cwd environment path = .ok config) :
    ∃ table, Settings tree cwd path table ∧ Origins id id environment {} table config := by
  unfold fromFile at h
  split at h
  · split at h
    · split at h
      · rename_i octets hread
        obtain ⟨table, htable, ho⟩ := origins_octets h
        exact ⟨table, .named hread htable, ho⟩
      · cases h
    · cases h
  · split at h
    · rename_i location hlocation
      split at h
      · rename_i octets hentry
        obtain ⟨table, htable, ho⟩ := origins_octets h
        exact ⟨table, .discovered hlocation hentry htable, ho⟩
      · cases h
    · rename_i hlocation
      cases h
      exact ⟨[], .absent hlocation, origins_default environment⟩

/-- Settings that are loaded are valid, and to normalize them changes nothing. Each of their values is
that of the caller, else that of the settings file, else the default, whatever the others are. -/
theorem load_settled {tree : Tree} {cwd : Location} {environment : Environment}
    {path : Option String} {overrides : Overrides} {config : Config}
    (h : load tree cwd environment path overrides = .ok config) :
    config.normalize = config ∧ config.validate = .ok config ∧
      SingleSlash config.baseUrl ∧ Neat config.layout ∧ Neat config.format ∧
      1 ≤ config.answerSlots ∧ config.answerSlots ≤ 26 ∧
      ∃ table, Settings tree cwd path table ∧
        Origins normalUrl trim environment overrides table config := by
  obtain ⟨read, hread, hsettle⟩ := bind_eq_ok.1 h
  obtain ⟨table, htable, ho⟩ := origins_fromFile hread
  obtain ⟨hdefect, rfl⟩ := validate_eq_ok.1 hsettle
  obtain ⟨hlayout, hformat, hleast, hmost⟩ := defect_eq_none.1 hdefect
  have hnormal := normalize_normalize (read.override overrides)
  -- what is validated has been trimmed before
  have htrimLayout : trim (read.override overrides).normalize.layout = _ := trim_trim _
  have htrimFormat : trim (read.override overrides).normalize.format = _ := trim_trim _
  rw [htrimLayout] at hlayout
  rw [htrimFormat] at hformat
  exact ⟨hnormal, validate_eq_ok.2 ⟨hdefect, rfl⟩, singleSlash_normalUrl _, neat_trim hlayout,
    neat_trim hformat, hleast, hmost, table, htable, ho.override overrides⟩

/-- A settings file found in the directory above, whose URL ends with the slashes of a variable. -/
theorem load_settled_course :
    let tree : Tree := { entries := [(["course"], .directory), (["mq.toml"], .file (Text.encode
      "[html]\nbase_url = '$ASSETS/'\nlayout = ' course '\n[tex]\nanswer_slots = 6\n"))] }
    let environment : Environment := [("ASSETS", "/q//")]
    let overrides : Overrides := { answerSlots := some 8 }
    let config : Config := {
      baseUrl := "/q/", layout := "course", answerSlots := 8, path := some "mq.toml" }
    load tree ["course"] environment none overrides = .ok config ∧
      config.normalize = config ∧ config.validate = .ok config ∧
      ∃ table, Settings tree ["course"] none table ∧
        Origins normalUrl trim environment overrides table config := by
  intro tree environment overrides config
  have hvalue : (load tree ["course"] environment none overrides).toOption.map id = some config := by
    decide +kernel
  obtain ⟨loaded, hload, rfl⟩ := exists_of_toOption hvalue
  have h := load_settled hload
  exact ⟨hload, h.1, h.2.1, h.2.2.2.2.2.2.2⟩

end QuizPress.Config

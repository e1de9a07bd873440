import Mathlib.Data.List.Forall2
import SourceChunks.SourceFile
import SourceChunks.Proofs.Grammar.Profiles

/-!
# Which tables the files of a language are chunked under

A configuration names its languages twice: beside the extensions, and above the tables.

* `Config.languageOfPath?_eq`: the extension of a path is looked up in any spelling, and the
  language is found as it is written.
* `Config.rel_given?`: a table has the fields that are written under its name.
* `Config.language_reached`: so the profile of a path has what is written under the normal
  form of its language's name.  Where the name is written otherwise, nothing that is written for
  it is read: the profile is the same with another table of that name, and with none.

That case is met as soon as a language is written with a capital (`capitalFile_not_reached`).
-/

namespace SourceChunks

open Text (normalName)

/-! ## Reading fields -/

section Reading

variable {α β : Type} {read : α → Except Failure β}

theorem exists_of_bind_eq_ok {first : Except Failure α} {next : α → Except Failure β} {image : β}
    (h : first >>= next = .ok image) : ∃ item, first = .ok item ∧ next item = .ok image := by
  cases first with
  | error failure => cases h
  | ok item => exact ⟨item, rfl, h⟩

/-- A list is read item by item. -/
theorem mapM_eq_ok_iff {items : List α} {images : List β} :
    items.mapM read = .ok images ↔
      List.Forall₂ (fun item image => read item = .ok image) items images := by
  induction items generalizing images with
  | nil => cases images <;> simp [pure, Except.pure]
  | cons item rest ih =>
    rw [List.mapM_cons, List.forall₂_cons_left_iff]
    constructor
    · intro h
      obtain ⟨image, hitem, h⟩ := exists_of_bind_eq_ok h
      obtain ⟨others, hrest, h⟩ := exists_of_bind_eq_ok h
      exact ⟨image, others, hitem, ih.1 hrest, (Except.ok.inj h).symm⟩
    · rintro ⟨image, others, hitem, hothers, rfl⟩
      rw [hitem, ih.2 hothers]
      rfl

/-- The first entry of a name was read from the first field of that name. -/
theorem rel_find? {fields : List (String × α)} {entries : List (String × β)} (key : String)
    (h : List.Forall₂ (fun field entry => field.1 = entry.1 ∧ read field.2 = .ok entry.2)
      fields entries) :
    Option.Rel (fun value image => read value = .ok image)
      ((fields.find? (·.1 == key)).map (·.2)) ((entries.find? (·.1 == key)).map (·.2)) := by
  induction h with
  | nil => exact .none
  | @cons field entry _ _ hentry _ ih =>
    by_cases hkey : field.1 = key
    · rw [List.find?_cons_of_pos (by simpa using hkey),
        List.find?_cons_of_pos (by simpa [← hentry.1] using hkey)]
      exact .some hentry.2
    · rw [List.find?_cons_of_neg (by simpa using hkey),
        List.find?_cons_of_neg (by simpa [← hentry.1] using hkey)]
      exact ih

end Reading

namespace Config

theorem eq_object_of_fieldsOfJson {json : Json} {fields : List (String × Json)}
    (h : fieldsOfJson json = .ok fields) : json = .object fields := by
  cases json <;> cases h
  rfl

/-- In a map that was read from an object, each key has what was read from its field. -/
theorem rel_field? {β : Type} {read : Json → Except Failure β} {json : Json}
    {map : Std.TreeMap String β}
    (h : (do
      let fields ← fieldsOfJson json
      let entries ← fields.mapM fun (name, value) => (name, ·) <$> read value
      return .ofList entries) = Except.ok map) (key : String) :
    Option.Rel (fun value image => read value = .ok image) (json.field? key) map[key]? := by
  obtain ⟨fields, hfields, h⟩ := exists_of_bind_eq_ok h
  obtain ⟨entries, hentries, h⟩ := exists_of_bind_eq_ok h
  obtain rfl := Except.ok.inj h
  obtain rfl := eq_object_of_fieldsOfJson hfields
  rw [getElem?_ofList]
  refine rel_find? key (List.rel_reverse ?_)
  refine (mapM_eq_ok_iff.1 hentries).imp ?_
  rintro ⟨name, value⟩ entry (hentry : (name, ·) <$> read value = .ok entry)
  cases hvalue : read value with
  | error failure => rw [hvalue] at hentry; cases hentry
  | ok image => rw [hvalue] at hentry; cases hentry; exact ⟨rfl, rfl⟩

theorem mem_of_field?_eq_some {json value : Json} {name : String}
    (h : json.field? name = some value) : (name, value) ∈ json.object?.getD [] := by
  cases json with
  | object fields =>
    obtain ⟨⟨other, _⟩, hfound, rfl⟩ := Option.map_eq_some_iff.1 h
    obtain rfl : other = name := by simpa using List.find?_some hfound
    exact List.mem_reverse.1 (List.mem_of_find?_eq_some hfound)
  | _ => cases h

/-! ## What a configuration writes -/

/-- The extensions and their languages, as they are written. -/
def writtenExtensions (json : Json) : List (String × Json) :=
  ((json.field? "extensions").bind Json.object?).getD []

/-- What is written for a field in the table of a name. -/
def written? (json : Json) (name field : String) : Option Json :=
  ((json.field? "profiles").bind (·.field? name)).bind (·.field? field)

variable {json : Json} {config : Config}

theorem extensions_eq (h : extensionsOfJson ((json.field? "extensions").getD (.object [])) =
    .ok config.extensions) :
    config.extensions = .ofList ((writtenExtensions json).map fun (name, language) =>
      (Text.lowercase name, language.spelling)) := by
  obtain ⟨fields, hfields, h⟩ := exists_of_bind_eq_ok h
  have hobject := eq_object_of_fieldsOfJson hfields
  have hwritten : writtenExtensions json = fields := by
    unfold writtenExtensions
    cases hfield : json.field? "extensions" with
    | none => rw [hfield] at hobject; cases hobject; rfl
    | some value => rw [hfield] at hobject; cases hobject; rfl
  rw [hwritten]
  exact (Except.ok.inj h).symm

/-- What a configuration is read from. -/
theorem reads_of_ofJson (h : ofJson json = .ok config) :
    extensionsOfJson ((json.field? "extensions").getD (.object [])) = .ok config.extensions ∧
      tablesOfJson ((json.field? "profiles").getD (.object [])) = .ok config.tables := by
  obtain ⟨_, -, h⟩ := exists_of_bind_eq_ok h
  obtain ⟨extensions, hextensions, h⟩ := exists_of_bind_eq_ok h
  obtain ⟨tables, htables, h⟩ := exists_of_bind_eq_ok h
  by_cases hdefault : tables.contains defaultTable = true
  · rw [if_pos hdefault] at h
    obtain rfl := Except.ok.inj h
    exact ⟨hextensions, htables⟩
  · rw [if_neg hdefault] at h
    cases h

/-- **The language of a path** is that of the last extension that is written like the path's in
some case. -/
theorem languageOfPath?_eq (h : ofJson json = .ok config) (path : String) :
    config.languageOfPath? path = ((writtenExtensions json).reverse.find? fun field =>
      Text.lowercase field.1 == Path.extension path).map (·.2.spelling) := by
  rw [languageOfPath?, extensions_eq (reads_of_ofJson h).1, getElem?_ofList, ← List.map_reverse,
    List.find?_map, Option.map_map]
  rfl

/-- **The entries of a field** are read from what is written for it. -/
theorem rel_given? (h : ofJson json = .ok config) (name field : String) :
    Option.Rel (fun value entries => entriesOfJson value = .ok entries)
      (written? json name field) (config.given? name field) := by
  have htables := rel_field? (reads_of_ofJson h).2 name
  have htable : ((json.field? "profiles").getD (.object [])).field? name =
      (json.field? "profiles").bind (·.field? name) := by
    cases json.field? "profiles" <;> rfl
  rw [htable] at htables
  unfold written? given?
  revert htables
  cases (json.field? "profiles").bind (·.field? name) <;> cases config.tables[name]? <;>
    intro htables <;> cases htables
  · exact .none
  · exact rel_field? ‹_› field

theorem isSome_given? (h : ofJson json = .ok config) (name field : String) :
    (config.given? name field).isSome = (written? json name field).isSome := by
  have hrel := rel_given? h name field
  revert hrel
  generalize written? json name field = value?
  generalize config.given? name field = entries?
  intro hrel
  cases hrel <;> rfl

/-- All fields that are written mean something. -/
def HasKnownFields (json : Json) : Prop :=
  ∀ name field, (written? json name field).isSome = true →
    field ∈ TypeRole.all.map TypeRole.fieldName

theorem not_isUnknown_of_known (h : ofJson json = .ok config) (hknown : HasKnownFields json)
    (name field : String) : ¬ config.IsUnknown name field := by
  rintro ⟨hunknown, hsome⟩
  rw [isSome_given? h, isSome_given? h] at hsome
  exact hunknown (hsome.elim (hknown _ _) (hknown _ _))

/-! ## Which tables are read -/

/-- Only the defaults and the table of the name itself are read. -/
theorem namedProfile_congr {other : Config} {name : String}
    (hdefault : other.tables[defaultTable]? = config.tables[defaultTable]?)
    (hname : other.tables[name]? = config.tables[name]?) :
    other.namedProfile name = config.namedProfile name := by
  have htable : ∀ key, other.tables[key]? = config.tables[key]? →
      other.table key = config.table key := by
    intro key hkey
    rw [table, table, Std.TreeMap.getD_eq_getD_getElem?, Std.TreeMap.getD_eq_getD_getElem?, hkey]
  rw [namedProfile, namedProfile, htable _ hdefault, htable _ hname]

theorem normalName_defaultTable : normalName (some defaultTable) = defaultTable := by
  decide +kernel

/-- What the chunks of a path have to do with what is written for its language. -/
structure Reached (json : Json) (config : Config) (path language : String) : Prop where
  /-- A profile is made unless some entry has parts, and files are chunked under it. -/
  made : (∀ role, ∀ entry ∈ config.entries (normalName (some language)) role,
      entry.isPlain = true) →
    ∃ profile, (config.session.profile (some language)).1 = .ok profile ∧
      ∀ parsers budget coalesce contents, isBlankFile contents = false →
        Languages.chunkFile { config, parsers } budget coalesce path contents =
          (do
            let parsed ← parsers.parse language contents
            let arena ← Producer.ofExcept (parsed.prepared profile coalesce)
            ChunkWalk.chunks { arena, profile, budget })
  /-- It has what is written under the normal form of the language's name, which is what is
  written for the language if its name is in that form. -/
  written : ∀ profile, (config.session.profile (some language)).1 = .ok profile →
    ∀ role value, written? json (normalName (some language)) role.fieldName = some value →
      entriesOfJson value = .ok (profile.entries role)
  /-- If it is not, nothing that is written for the language is read. -/
  unread : normalName (some language) ≠ language →
    ∀ other : Config, (∀ name, name ≠ language → other.tables[name]? = config.tables[name]?) →
      (other.session.profile (some language)).1 = (config.session.profile (some language)).1 ∧
        other.profile (some language) = config.profile (some language)

/-- **Which languages are reached.**  The language of a path is the one written beside its
extension in any case.  Its files are chunked under what is written for the normal form of its
name; so what is written for a language counts exactly if its name is written in that form. -/
theorem language_reached (hread : ofJson json = .ok config) (hknown : HasKnownFields json)
    (path : String) :
    config.languageOfPath? path = ((writtenExtensions json).reverse.find? fun field =>
        Text.lowercase field.1 == Path.extension path).map (·.2.spelling) ∧
      ∀ language, config.languageOfPath? path = some language →
        config.Reached json path language := by
  refine ⟨languageOfPath?_eq hread path, fun language hlanguage => ?_⟩
  have hanswers := config.answers_namedProfile (normalName (some language))
  rw [← Config.profile, ← profile_session] at hanswers
  have hfields := not_isUnknown_of_known hread hknown (normalName (some language))
  refine ⟨fun hplain => ?_, fun profile hprofile role value hvalue => ?_,
    fun hnormal other hother => ?_⟩
  · cases hmade : (config.session.profile (some language)).1 with
    | error failure =>
      obtain ⟨field, hfield⟩ | ⟨role, entry, hentry, hparts⟩ := hanswers.refused.1 ⟨failure, hmade⟩
      · exact absurd hfield (hfields field)
      · rw [hplain role entry hentry] at hparts
        cases hparts
    | ok profile =>
      refine ⟨profile, rfl, fun parsers budget coalesce contents hblank => ?_⟩
      rw [profile_session] at hmade
      rw [Languages.chunkFile, hblank, if_neg Bool.false_ne_true, hlanguage]
      simp only [hmade, Producer.ofExcept, Producer.done_bind]
  · have hrel := rel_given? hread (normalName (some language)) role.fieldName
    rw [hvalue] at hrel
    rw [(hanswers.made profile hprofile).2 role]
    revert hrel
    generalize config.given? (normalName (some language)) role.fieldName = entries?
    intro hrel
    cases hrel with
    | some hentries => exact hentries
  · have hdefault : defaultTable ≠ language := by
      rintro rfl
      exact hnormal normalName_defaultTable
    have hsame : other.profile (some language) = config.profile (some language) :=
      namedProfile_congr (hother _ hdefault) (hother _ hnormal)
    exact ⟨by rw [profile_session, profile_session, hsame], hsame⟩

/-- A configuration with one language in lower case and one with a capital. -/
def capitalJson : Json :=
  .object [("extensions", .object [("PY", .string "python"), ("kt", .string "Kotlin")]),
    ("profiles", .object
      [("default", .object [("comment_types", .array [.string "comment"])]),
        ("python", .object [("comment_types", .array [.string "remark"])]),
        ("Kotlin", .object [("comment_types", .array [.string "line_comment"])])])]

/-- The table of types of comments, and nothing else. -/
def commentTable (type : String) : TypeTable :=
  .ofTypes [("comment_types", [type])]

/-- The configuration that is read from it. -/
def capitalConfig : Config where
  extensions := Std.TreeMap.ofList [("py", "python"), ("kt", "Kotlin")]
  tables := Std.TreeMap.ofList [("default", commentTable "comment"),
    ("python", commentTable "remark"), ("Kotlin", commentTable "line_comment")]

theorem ofJson_capitalJson : ofJson capitalJson = .ok capitalConfig := by
  rfl

theorem hasKnownFields_capitalJson : HasKnownFields capitalJson := by
  intro name field h
  obtain ⟨value, hvalue⟩ := Option.isSome_iff_exists.1 h
  obtain ⟨table, htable, hfield⟩ := Option.bind_eq_some_iff.1 hvalue
  obtain ⟨tables, htables, hname⟩ := Option.bind_eq_some_iff.1 htable
  obtain rfl := Option.some.inj htables
  have htableMem := mem_of_field?_eq_some hname
  simp only [Json.object?, Option.getD_some, List.mem_cons, List.not_mem_nil, or_false,
    Prod.mk.injEq] at htableMem
  have hfieldMem := mem_of_field?_eq_some hfield
  obtain ⟨-, rfl⟩ | ⟨-, rfl⟩ | ⟨-, rfl⟩ := htableMem <;>
  · simp only [Json.object?, Option.getD_some, List.mem_singleton, Prod.mk.injEq] at hfieldMem
    rw [hfieldMem.1]
    decide

theorem capitalConfig_python_reached :
    ofJson capitalJson = .ok capitalConfig ∧ HasKnownFields capitalJson ∧
      capitalConfig.languageOfPath? "a.Py" = some "python" ∧
      capitalConfig.Reached capitalJson "a.Py" "python" := by
  have hlanguage : capitalConfig.languageOfPath? "a.Py" = some "python" := by
    decide +kernel
  exact ⟨ofJson_capitalJson, hasKnownFields_capitalJson, hlanguage,
    (language_reached ofJson_capitalJson hasKnownFields_capitalJson "a.Py").2 _ hlanguage⟩

/-- The profile of a Kotlin file has not what is written for Kotlin. -/
theorem capitalConfig_not_reached :
    ofJson capitalJson = .ok capitalConfig ∧ HasKnownFields capitalJson ∧
      capitalConfig.languageOfPath? "a.kt" = some "Kotlin" ∧
      written? capitalJson "Kotlin" "comment_types" = some (.array [.string "line_comment"]) ∧
      ∃ profile, (capitalConfig.session.profile (some "Kotlin")).1 = .ok profile ∧
        profile.types .comments = ["comment"] := by
  have hnormal : normalName (some "Kotlin") = "kotlin" := by decide +kernel
  have hanswer : (capitalConfig.session.profile (some "Kotlin")).1 =
      .ok { language := "kotlin", entries := capitalConfig.entries "kotlin" } := by
    have hplain : TypeTable.nestedEntry? (TypeRole.all.flatMap (capitalConfig.entries "kotlin")) =
        none := by rfl
    rw [profile_session, Config.profile, hnormal, namedProfile_of_known
      (not_isUnknown_of_known ofJson_capitalJson hasKnownFields_capitalJson "kotlin"), hplain]
  exact ⟨ofJson_capitalJson, hasKnownFields_capitalJson, by decide +kernel, rfl, _, hanswer, rfl⟩

end Config

end SourceChunks

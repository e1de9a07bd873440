import Std.Data.TreeMap.Lemmas
import SourceChunks.Grammar.ConfigFile
import SourceChunks.Grammar.Session

/-!
# What a profile is made of

A profile is asked for by the name of a language, and is made of two tables: that of the name
in its normal form, and that of the defaults.

* `TypeTable.getElem?_overlaid`: of two tables laid over one another, each field is the own one
  if there is one, and else the default one.
* `GrammarSession.Remembers.profiles_eq`: a session answers every request as one in which
  nothing was asked yet, for what it remembers is what would be made
  (`GrammarSession.Remembers`), and it remembers no refusals.
* `Config.profiles_answered`: so each answer is determined by the normal name and the two
  tables, whatever was asked before.

A profile is refused for fields that mean nothing, and also where an array or an object stands
among the entries of a field that counts: no set can be made of these
(`nestedConfig_refused`).  Everything else that is listed is kept, texts or not.
-/

namespace SourceChunks

open Text (normalName)

/-! ## Tables -/

section Tables

variable {β : Type}

/-- Of entries with one key the last counts. -/
theorem getElem?_insertMany (map : Std.TreeMap String β) (entries : List (String × β))
    (key : String) :
    (map.insertMany entries)[key]? =
      ((entries.reverse.find? (·.1 == key)).map (·.2)).or map[key]? := by
  induction entries generalizing map with
  | nil => simp
  | cons entry rest ih =>
    obtain ⟨name, value⟩ := entry
    rw [Std.TreeMap.insertMany_cons, ih, Std.TreeMap.getElem?_insert, List.reverse_cons,
      List.find?_append]
    cases hfound : rest.reverse.find? (·.1 == key) with
    | some later => rfl
    | none => by_cases hname : name = key <;> simp [hname]

theorem getElem?_ofList (entries : List (String × β)) (key : String) :
    (Std.TreeMap.ofList entries)[key]? = (entries.reverse.find? (·.1 == key)).map (·.2) := by
  rw [Std.TreeMap.ofList_eq_insertMany_empty, getElem?_insertMany,
    Std.TreeMap.getElem?_emptyc, Option.or_none]

/-- A map lists each key once. -/
theorem find?_reverse_toList (map : Std.TreeMap String β) (key : String) :
    (map.toList.reverse.find? (·.1 == key)).map (·.2) = map[key]? := by
  rw [← getElem?_ofList]
  cases hvalue : map[key]? with
  | some value =>
    refine Std.TreeMap.getElem?_ofList_of_mem (k := key) Std.ReflCmp.compare_self
      Std.TreeMap.distinct_keys_toList ?_
    exact Std.TreeMap.mem_toList_iff_getElem?_eq_some.2 hvalue
  | none =>
    refine Std.TreeMap.getElem?_ofList_of_contains_eq_false ?_
    rw [Std.TreeMap.map_fst_toList_eq_keys, Bool.eq_false_iff, Ne, List.contains_iff_mem,
      Std.TreeMap.mem_keys, Std.TreeMap.mem_iff_isSome_getElem?, hvalue]
    simp

end Tables

namespace TypeTable

/-- **Two tables laid over one another.**  The own fields are put in place of the others. -/
theorem getElem?_overlaid (table own : TypeTable) (field : String) :
    (table.overlaid own)[field]? = own[field]?.or table[field]? := by
  rw [overlaid, getElem?_insertMany, find?_reverse_toList]

theorem mem_unknownFields {table : TypeTable} {field : String} :
    field ∈ table.unknownFields ↔
      table[field]?.isSome ∧ field ∉ TypeRole.all.map TypeRole.fieldName := by
  rw [unknownFields, List.mem_filter, Std.TreeMap.mem_keys,
    Std.TreeMap.mem_iff_isSome_getElem?]
  simp

/-- The unknown fields are listed in order, each once. -/
theorem pairwise_unknownFields (table : TypeTable) :
    table.unknownFields.Pairwise (· < ·) := by
  have hordered : table.keys.Pairwise fun first second => compare first second = .lt :=
    Std.TreeMap.ordered_keys
  exact (hordered.imp compareOfLessAndEq_eq_lt.1).filter _

end TypeTable

/-! ## Sessions -/

namespace GrammarSession

variable {session : GrammarSession} {config : Config}

/-- What the session remembers is what its configuration gives. -/
structure Remembers (session : GrammarSession) (config : Config) : Prop where
  under : session.config = config
  made : ∀ name profile, session.made[name]? = some profile →
    config.namedProfile name = .ok profile

/-- **One request** is answered with what the configuration gives. -/
theorem Remembers.profile_eq (h : session.Remembers config) (language : Option String) :
    (session.profile language).1 = config.profile language := by
  rw [profile, Config.profile, h.under]
  cases hmade : session.made[normalName language]? with
  | some remembered => exact (h.made _ remembered hmade).symm
  | none => cases hmake : config.namedProfile (normalName language) <;> rfl

/-- After one request the session still remembers only what its configuration gives. -/
theorem Remembers.profile (h : session.Remembers config) (language : Option String) :
    (session.profile language).2.Remembers config := by
  rw [GrammarSession.profile, h.under]
  cases hmade : session.made[normalName language]? with
  | some remembered => exact h
  | none =>
    cases hmake : config.namedProfile (normalName language) with
    | error failure => exact h
    | ok made =>
      refine ⟨rfl, fun name other hother => ?_⟩
      have hinsert : (session.made.insert (normalName language) made)[name]? = some other := hother
      rw [Std.TreeMap.getElem?_insert] at hinsert
      by_cases hname : normalName language = name
      · rw [if_pos (by rw [hname]; exact Std.ReflCmp.compare_self), Option.some.injEq] at hinsert
        rw [← hname, ← hinsert]
        exact hmake
      · rw [if_neg (by rwa [Std.LawfulEqCmp.compare_eq_iff_eq])] at hinsert
        exact h.made name other hinsert

/-- A refusal leaves no trace. -/
theorem profile_of_refused {language : Option String} {failure : Failure}
    (h : (session.profile language).1 = .error failure) :
    (session.profile language).2 = session := by
  revert h
  rw [profile]
  cases session.made[normalName language]? with
  | some remembered => intro _; rfl
  | none =>
    cases session.config.namedProfile (normalName language) with
    | error other => intro _; rfl
    | ok made => intro h; cases h

/-- **Many requests** are answered each as if it were the first. -/
theorem Remembers.profiles_eq (h : session.Remembers config) (requests : List (Option String)) :
    session.profiles requests = requests.map config.profile := by
  induction requests generalizing session with
  | nil => rfl
  | cons language rest ih =>
    show (session.profile language).1 :: (session.profile language).2.profiles rest = _
    rw [List.map_cons, h.profile_eq, ih (h.profile language)]

end GrammarSession

/-! ## Profiles -/

namespace Config

variable (config : Config) (name : String)

/-- The entries that the table of a name gives for a field, if it has the field. -/
def given? (field : String) : Option (List Json) :=
  config.tables[name]?.bind (·[field]?)

/-- The entries for a role that hold for a name: those of its own table if it has the field,
else those of the defaults. -/
def entries (role : TypeRole) : List Json :=
  ((config.given? name role.fieldName).or (config.given? defaultTable role.fieldName)).getD []

/-- The field means nothing, and stands in the table of the name or in that of the defaults. -/
def IsUnknown (field : String) : Prop :=
  field ∉ TypeRole.all.map TypeRole.fieldName ∧
    ((config.given? name field).isSome = true ∨ (config.given? defaultTable field).isSome = true)

/-- What a configuration answers to a request for the profile of a name in normal form. -/
structure Answers (answer : Except Failure Profile) : Prop where
  /-- A request is refused exactly for fields that mean nothing and for entries with parts. -/
  refused : (∃ failure, answer = .error failure) ↔
    (∃ field, config.IsUnknown name field) ∨
      ∃ role, ∃ entry ∈ config.entries name role, entry.isPlain = false
  /-- Fields that mean nothing are all told, in order. -/
  unknown : (∃ field, config.IsUnknown name field) →
    ∃ fields, answer = .error (.unknownFields name fields) ∧ fields.Pairwise (· < ·) ∧
      ∀ field, field ∈ fields ↔ config.IsUnknown name field
  /-- If there are none, the first entry with parts is told by its kind. -/
  nested : (∀ field, ¬ config.IsUnknown name field) →
    ∀ entry, TypeTable.nestedEntry? (TypeRole.all.flatMap (config.entries name)) = some entry →
      answer = .error (.nestedEntry entry.kind)
  /-- Otherwise what is listed for a role is what the own table lists, if it has the field, else
  what the defaults list, else nothing. -/
  made : ∀ profile, answer = .ok profile → profile.language = name ∧
    ∀ role, profile.entries role =
      ((config.given? name role.fieldName).or (config.given? defaultTable role.fieldName)).getD []

variable {config name}

theorem getElem?_table (field : String) :
    (config.table name)[field]? = config.given? name field := by
  rw [table, given?, Std.TreeMap.getD_eq_getD_getElem?]
  cases config.tables[name]? with
  | none => exact Std.TreeMap.getElem?_emptyc
  | some own => rfl

/-- The two tables of a name, laid over one another. -/
theorem getElem?_merged (field : String) :
    ((config.table defaultTable).overlaid (config.table name))[field]? =
      (config.given? name field).or (config.given? defaultTable field) := by
  rw [TypeTable.getElem?_overlaid, getElem?_table, getElem?_table]

theorem getD_merged (role : TypeRole) :
    ((config.table defaultTable).overlaid (config.table name)).getD role.fieldName [] =
      config.entries name role := by
  rw [Std.TreeMap.getD_eq_getD_getElem?, getElem?_merged, entries]

theorem mem_unknownFields_iff {field : String} :
    field ∈ ((config.table defaultTable).overlaid (config.table name)).unknownFields ↔
      config.IsUnknown name field := by
  rw [TypeTable.mem_unknownFields, getElem?_merged, Option.isSome_or, Bool.or_eq_true, IsUnknown,
    and_comm]

/-- An entry with parts is met exactly if there is one in the entries of some role. -/
theorem nestedEntry?_ne_none_iff :
    TypeTable.nestedEntry? (TypeRole.all.flatMap (config.entries name)) ≠ none ↔
      ∃ role, ∃ entry ∈ config.entries name role, entry.isPlain = false := by
  unfold TypeTable.nestedEntry?
  rw [Option.ne_none_iff_isSome, List.find?_isSome]
  constructor
  · rintro ⟨entry, hmem, hentry⟩
    obtain ⟨role, -, hrole⟩ := List.mem_flatMap.1 hmem
    exact ⟨role, entry, hrole, by simpa using hentry⟩
  · rintro ⟨role, entry, hrole, hentry⟩
    exact ⟨entry, List.mem_flatMap.2 ⟨role, role.mem_all, hrole⟩, by simp [hentry]⟩

/-- Fields that mean nothing are told before anything else is looked at. -/
theorem namedProfile_of_unknown (h : ∃ field, config.IsUnknown name field) :
    config.namedProfile name = .error (.unknownFields name
      ((config.table defaultTable).overlaid (config.table name)).unknownFields) := by
  have hempty : ((config.table defaultTable).overlaid
      (config.table name)).unknownFields.isEmpty = false := by
    obtain ⟨field, hfield⟩ := h
    rw [List.isEmpty_eq_false_iff]
    exact List.ne_nil_of_mem (mem_unknownFields_iff.2 hfield)
  rw [namedProfile, TypeTable.profile]
  simp only [hempty, Bool.not_false, if_true]

/-- Where all fields are known, a profile is made unless some entry has parts. -/
theorem namedProfile_of_known (h : ∀ field, ¬ config.IsUnknown name field) :
    config.namedProfile name =
      match TypeTable.nestedEntry? (TypeRole.all.flatMap (config.entries name)) with
      | some entry => .error (.nestedEntry entry.kind)
      | none => .ok { language := name, entries := config.entries name } := by
  have hempty : ((config.table defaultTable).overlaid
      (config.table name)).unknownFields.isEmpty = true := by
    rw [List.isEmpty_iff, List.eq_nil_iff_forall_not_mem]
    exact fun field hfield => h field (mem_unknownFields_iff.1 hfield)
  have hentries : (fun role : TypeRole => ((config.table defaultTable).overlaid
      (config.table name)).getD role.fieldName []) = config.entries name := funext getD_merged
  rw [namedProfile, TypeTable.profile, hempty, hentries]
  rfl

theorem answers_of_unknown (h : ∃ field, config.IsUnknown name field) :
    config.Answers name (config.namedProfile name) := by
  have herror := namedProfile_of_unknown h
  exact {
    refused := ⟨fun _ => Or.inl h, fun _ => ⟨_, herror⟩⟩
    unknown := fun _ => ⟨_, herror, TypeTable.pairwise_unknownFields _,
      fun field => mem_unknownFields_iff⟩
    nested := fun hknown => absurd h (not_exists.2 hknown)
    made := fun profile hprofile => by rw [herror] at hprofile; cases hprofile }

theorem answers_of_known (h : ∀ field, ¬ config.IsUnknown name field) :
    config.Answers name (config.namedProfile name) := by
  have heq := namedProfile_of_known h
  have hsome := @nestedEntry?_ne_none_iff config name
  cases hnested : TypeTable.nestedEntry? (TypeRole.all.flatMap (config.entries name)) with
  | some entry =>
    rw [hnested] at heq hsome
    exact {
      refused := ⟨fun _ => Or.inr (hsome.1 (Option.some_ne_none entry)), fun _ => ⟨_, heq⟩⟩
      unknown := fun hunknown => absurd hunknown (not_exists.2 h)
      nested := fun _ other hother => by
        rw [heq, Option.some.inj (hnested.symm.trans hother)]
      made := fun other hmade => by rw [heq] at hmade; cases hmade }
  | none =>
    rw [hnested] at heq hsome
    exact {
      refused := by
        constructor
        · rintro ⟨failure, hfailure⟩
          rw [heq] at hfailure
          cases hfailure
        · rintro (hunknown | hentry)
          · exact absurd hunknown (not_exists.2 h)
          · exact absurd rfl (hsome.2 hentry)
      unknown := fun hunknown => absurd hunknown (not_exists.2 h)
      nested := fun _ other hother => by rw [hnested] at hother; cases hother
      made := fun other hmade => by
        rw [← Except.ok.inj (heq.symm.trans hmade)]
        exact ⟨rfl, fun role => rfl⟩ }

/-- **What is made for a name** is what its own table and the defaults give. -/
theorem answers_namedProfile (config : Config) (name : String) :
    config.Answers name (config.namedProfile name) := by
  by_cases hunknown : ∃ field, config.IsUnknown name field
  · exact answers_of_unknown hunknown
  · exact answers_of_known (not_exists.1 hunknown)

theorem remembers_session (config : Config) : config.session.Remembers config where
  under := rfl
  made name profile hprofile := by
    have hnone : config.session.made[name]? = none := Std.TreeMap.getElem?_emptyc
    rw [hnone] at hprofile
    cases hprofile

/-- A first request is answered with what the configuration gives. -/
theorem profile_session (config : Config) (language : Option String) :
    (config.session.profile language).1 = config.profile language :=
  config.remembers_session.profile_eq language

/-- **The answers of a session.**  Each is the one that a session gives in which nothing was asked
before; it depends on the normal form of the name alone, and is made of the entries of that
name's table and of the defaults. -/
theorem profiles_answered (config : Config) (requests : List (Option String)) :
    config.session.profiles requests =
        requests.map (fun language => (config.session.profile language).1) ∧
      (∀ language same, normalName same = normalName language →
        (config.session.profile same).1 = (config.session.profile language).1) ∧
      ∀ language, config.Answers (normalName language) (config.session.profile language).1 := by
  refine ⟨?_, fun language same hsame => ?_, fun language => ?_⟩
  · simp only [profile_session]
    exact config.remembers_session.profiles_eq requests
  · rw [profile_session, profile_session, Config.profile, hsame, Config.profile]
  · rw [profile_session]
    exact config.answers_namedProfile (normalName language)

/-- A table in which a list stands among the types of comments. -/
def nestedTable : TypeTable :=
  Std.TreeMap.ofList [("comment_types", [Json.array [.string "a"]])]

/-- The configuration that has this table for its defaults. -/
def nestedConfig : Config where
  extensions := Std.TreeMap.ofList ([] : List (String × String))
  tables := Std.TreeMap.ofList [(defaultTable, nestedTable)]

/-- A configuration that can be read and has no fields that mean nothing, of which still no
profile can be made. -/
theorem nestedConfig_refused :
    ofJson (.object [("profiles", .object [("default",
        .object [("comment_types", .array [.array [.string "a"]])])])]) = .ok nestedConfig ∧
      (∀ field, ¬ nestedConfig.IsUnknown "x" field) ∧
      (nestedConfig.session.profile (some "x")).1 = .error (.nestedEntry "list") := by
  have hknown : ∀ field, ¬ nestedConfig.IsUnknown "x" field := by
    intro field hfield
    have hnone : ((nestedConfig.table defaultTable).overlaid
        (nestedConfig.table "x")).unknownFields = [] := by decide +kernel
    have hmem := mem_unknownFields_iff.2 hfield
    rw [hnone] at hmem
    cases hmem
  have hname : normalName (some "x") = "x" := by decide +kernel
  refine ⟨rfl, hknown, ?_⟩
  rw [profile_session, Config.profile, hname]
  exact (nestedConfig.answers_namedProfile "x").nested hknown (.array [.string "a"]) rfl

end Config

end SourceChunks

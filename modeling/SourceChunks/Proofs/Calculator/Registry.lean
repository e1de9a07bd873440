import SourceChunks.Proofs.Calculator.Steady
import SourceChunks.Proofs.Text.NormalName

/-!
# The registry is a map on normal names

What a registry answers depends on what was asked of it before only through the last call that
entered something under the name in question (`entryAfter`): a factory, or that there is none.
Names count by their normal form, and it makes no difference that a name is brought into it
more than once on its way to the map.

* `factories_after`: after any calls the registry holds, under each name, what was entered last.
* `answered_call`: each call is answered as by that map.
* `actsAsMap`: both, with what follows: a call that is not heeded changes nothing, the
  names that are listed are in order and in normal form, and a factory that was registered is
  the one that is asked until its name is entered again.

What a factory refuses is passed on as it is.  So a calculator asked for without a name may be
refused in the same words as one that is missing, though there is one (`refusing_create`).
-/

namespace SourceChunks

open Text (normalName)

/-! ## Calls and answers -/

/-- Something that is asked of a registry. -/
inductive RegistryCall where
  | register (name : Option String) (factory : Option CalculatorFactory)
  | unregister (name : Option String)
  | get (name : Option String)
  | available
  | create (name encoding : Option String)

/-- What a registry answers. -/
inductive RegistryAnswer where
  /-- The call was heeded. -/
  | done
  | refused (failure : Failure)
  | factory (found : Option CalculatorFactory)
  | names (names : List String)
  | calculator (made : Except Failure Calculator)

/-- Does the failure say that a value is wrong, rather than its type, a file or a calculator? -/
def Failure.isWrongValue : Failure → Bool
  | rootOutOfRange .. | noDefaultProfile | unknownFields .. | blankCalculatorName
  | unsupportedCalculator _ | factoryRefused _ | budgetNotAnInteger _ | badLimit | nulInPath => true
  | _ => false

namespace CalculatorRegistry

/-- What a registry answers, and the registry afterwards. -/
def call (registry : CalculatorRegistry) : RegistryCall → RegistryAnswer × CalculatorRegistry
  | .register name factory =>
    match registry.register name factory with
    | .ok changed => (.done, changed)
    | .error failure => (.refused failure, registry)
  | .unregister name => (.done, registry.unregister name)
  | .get name => (.factory (registry.get? name), registry)
  | .available => (.names registry.available, registry)
  | .create name encoding => (.calculator (registry.create name encoding), registry)

/-- The registry after calls. -/
def after (registry : CalculatorRegistry) (calls : List RegistryCall) : CalculatorRegistry :=
  calls.foldl (fun registry call => (registry.call call).2) registry

end CalculatorRegistry

/-! ## The map -/

namespace RegistryCall

/-- What a call enters under a name, if it enters something there: a factory that is registered,
or none when the name is taken out.  Nothing is entered under a blank name. -/
def enters? (key : String) : RegistryCall → Option (Option CalculatorFactory)
  | register name (some factory) =>
    if normalName name = key ∧ key ≠ "" then some (some factory) else none
  | unregister name => if normalName name = key then some none else none
  | _ => none

/-- A factory is entered under a normal name that is not blank. -/
theorem normal_of_enters? {key : String} {factory : CalculatorFactory} {call : RegistryCall}
    (h : call.enters? key = some (some factory)) :
    normalName (some key) = key ∧ key ≠ "" := by
  unfold enters? at h
  split at h
  · split at h
    · next hkey => exact ⟨by rw [← hkey.1, Text.normalName_normalName], hkey.2⟩
    · simp at h
  · split at h <;> simp at h
  · simp at h

/-- What comes of a request for a calculator under a name that leads to this entry. -/
def made (name encoding : Option String) : Option CalculatorFactory → Except Failure Calculator
  | some factory => factory encoding
  | none => .error (.unsupportedCalculator name)

/-- How a call is answered where names have these entries. -/
def Answered (entry : String → Option CalculatorFactory) :
    RegistryCall → RegistryAnswer → Prop
  | register name factory, answer =>
    answer = if normalName name = "" then .refused .blankCalculatorName
      else if factory.isNone then .refused .notAFactory else .done
  | unregister _, answer => answer = .done
  | get name, answer => answer = .factory (entry (normalName name))
  | available, answer => ∃ names, answer = .names names ∧ names.Pairwise (· < ·) ∧
      ∀ key, key ∈ names ↔ (entry key).isSome = true
  | create name encoding, answer =>
    answer = .calculator (made name encoding (entry (CalculatorRegistry.keyFor name)))

end RegistryCall

namespace CalculatorRegistry

/-- What is registered under a normal name after calls: what the last call entered that entered
something there, or else what is registered from the start. -/
def entryAfter (calls : List RegistryCall) (key : String) : Option CalculatorFactory :=
  (calls.reverse.findSome? (·.enters? key)).getD (builtinFactories.lookup key)

/-! ## One call -/

variable {registry : CalculatorRegistry} {name : Option String}

theorem register_of_blank (h : normalName name = "") (factory? : Option CalculatorFactory) :
    registry.register name factory? = .error .blankCalculatorName := by
  simp only [register, if_pos h]

theorem register_none (h : normalName name ≠ "") :
    registry.register name none = .error .notAFactory := by
  simp only [register, if_neg h]

theorem register_some (h : normalName name ≠ "") (factory : CalculatorFactory) :
    registry.register name (some factory) =
      .ok ⟨registry.factories.insert (normalName name) factory⟩ := by
  simp only [register, if_neg h]

/-- **What a call does to the map**: it enters what it enters, and leaves all else as it is. -/
theorem factories_call (registry : CalculatorRegistry) (call : RegistryCall) (key : String) :
    (registry.call call).2.factories[key]? =
      (call.enters? key).getD registry.factories[key]? := by
  match call with
  | .register name none =>
    by_cases hblank : normalName name = ""
    · rw [CalculatorRegistry.call, register_of_blank hblank]
      rfl
    · rw [CalculatorRegistry.call, register_none hblank]
      rfl
  | .register name (some factory) =>
    by_cases hblank : normalName name = ""
    · have hkey : ¬ (normalName name = key ∧ key ≠ "") := fun h => h.2 (h.1 ▸ hblank)
      rw [CalculatorRegistry.call, register_of_blank hblank, RegistryCall.enters?, if_neg hkey]
      rfl
    · have hkey : normalName name = key ∧ key ≠ "" ↔ normalName name = key :=
        and_iff_left_of_imp fun h => h ▸ hblank
      rw [CalculatorRegistry.call, register_some hblank, RegistryCall.enters?]
      simp only [hkey, Std.TreeMap.getElem?_insert, Std.compare_eq_iff_eq]
      split <;> rfl
  | .unregister name =>
    simp only [CalculatorRegistry.call, unregister, RegistryCall.enters?,
      Std.TreeMap.getElem?_erase, Std.compare_eq_iff_eq]
    split <;> rfl
  | .get name => rfl
  | .available => rfl
  | .create name encoding => rfl

/-- A call that is not heeded leaves the registry as it is. -/
theorem call_of_not_done {call : RegistryCall} (h : (registry.call call).1 ≠ .done) :
    (registry.call call).2 = registry := by
  cases call with
  | register name factory? =>
    rw [CalculatorRegistry.call] at h ⊢
    cases hregistered : registry.register name factory? with
    | ok changed =>
      rw [hregistered] at h
      exact absurd rfl h
    | error failure => rfl
  | unregister name => exact absurd rfl h
  | get name => rfl
  | available => rfl
  | create name encoding => rfl

/-- The name under which a calculator is looked up is normal, so it is looked up under itself. -/
theorem normalName_keyFor (name : Option String) :
    normalName (some (keyFor name)) = keyFor name := by
  by_cases hblank : normalName name = ""
  · simp only [keyFor, if_pos hblank]
    decide +kernel
  · simp only [keyFor, if_neg hblank]
    exact Text.normalName_normalName name

/-- **How a call is answered**: as by the map that the registry is. -/
theorem answered_call (registry : CalculatorRegistry) (call : RegistryCall) :
    call.Answered (registry.factories[·]?) (registry.call call).1 := by
  match call with
  | .register name none =>
    by_cases hblank : normalName name = ""
    · rw [CalculatorRegistry.call, register_of_blank hblank]
      exact (if_pos hblank).symm
    · rw [CalculatorRegistry.call, register_none hblank]
      exact (if_neg hblank).symm
  | .register name (some factory) =>
    by_cases hblank : normalName name = ""
    · rw [CalculatorRegistry.call, register_of_blank hblank]
      exact (if_pos hblank).symm
    · rw [CalculatorRegistry.call, register_some hblank]
      exact (if_neg hblank).symm
  | .unregister name => rfl
  | .get name => rfl
  | .available =>
    refine ⟨registry.available, rfl, ?_, fun key => ?_⟩
    · have hordered : registry.available.Pairwise fun first second =>
          compare first second = .lt := Std.TreeMap.ordered_keys
      exact hordered.imp compareOfLessAndEq_eq_lt.1
    · rw [available, Std.TreeMap.mem_keys, Std.TreeMap.mem_iff_isSome_getElem?]
  | .create name encoding =>
    show RegistryAnswer.calculator (registry.create name encoding) = _
    rw [create, get?, normalName_keyFor]
    rfl

theorem keyFor_of_blank (h : normalName name = "") : keyFor name = defaultName := by
  simp only [keyFor, if_pos h]

/-! ## Many calls -/

theorem factories_after_cons (calls : List RegistryCall) (key : String) :
    (registry.after calls).factories[key]? =
      (calls.reverse.findSome? (·.enters? key)).getD registry.factories[key]? := by
  induction calls generalizing registry with
  | nil => rfl
  | cons call calls ih =>
    have hafter : registry.after (call :: calls) = (registry.call call).2.after calls := rfl
    rw [hafter, ih, factories_call, List.reverse_cons, List.findSome?_append]
    cases calls.reverse.findSome? (·.enters? key) with
    | none => simp
    | some entry => rfl

/-- **After any calls** the registry holds what was entered last. -/
theorem factories_after (calls : List RegistryCall) (key : String) :
    (builtin.after calls).factories[key]? = entryAfter calls key := by
  rw [factories_after_cons, factories_builtin, entryAfter]

/-- Everything is entered under a normal name that is not blank. -/
theorem normal_of_entryAfter {calls : List RegistryCall} {key : String}
    {factory : CalculatorFactory} (h : entryAfter calls key = some factory) :
    normalName (some key) = key ∧ key ≠ "" := by
  rw [entryAfter] at h
  cases hfound : calls.reverse.findSome? (·.enters? key) with
  | none =>
    rw [hfound, Option.getD_none, ← factories_builtin] at h
    have hall : ∀ name ∈ builtinFactories.map Prod.fst, normalName (some name) = name ∧ name ≠ "" :=
      by decide +kernel
    exact hall key (List.mem_map_of_mem (mem_builtinFactories h))
  | some entry =>
    rw [hfound, Option.getD_some] at h
    subst h
    obtain ⟨call, -, hcall⟩ := List.exists_of_findSome?_eq_some hfound
    exact RegistryCall.normal_of_enters? hcall

/-- What was registered under a name stays there as long as nothing is entered under it. -/
theorem entryAfter_register (calls : List RegistryCall) {name : Option String}
    (hname : normalName name ≠ "") (factory : CalculatorFactory) {later : List RegistryCall}
    (hlater : ∀ call ∈ later, call.enters? (normalName name) = none) :
    entryAfter (calls ++ .register name (some factory) :: later) (normalName name) =
      some factory := by
  have hnothing : later.reverse.findSome? (·.enters? (normalName name)) = none := by
    rw [List.findSome?_eq_none_iff]
    exact fun call hcall => hlater call (List.mem_reverse.1 hcall)
  have hentered : (RegistryCall.register name (some factory)).enters? (normalName name) =
      some (some factory) := by
    rw [RegistryCall.enters?, if_pos ⟨rfl, hname⟩]
  rw [entryAfter, List.reverse_append, List.reverse_cons, List.append_assoc,
    List.singleton_append, List.findSome?_append, hnothing, Option.none_or,
    List.findSome?_cons_of_isSome (by rw [hentered]; rfl), hentered, Option.getD_some]

/-- A calculator is made by the factory that its name leads to, if there is one. -/
theorem create_after (calls : List RegistryCall) (name encoding : Option String) :
    (builtin.after calls).create name encoding =
      RegistryCall.made name encoding (entryAfter calls (keyFor name)) := by
  rw [create, get?, normalName_keyFor, factories_after]
  rfl

/-- After calls the registry acts as a map on normal names when it is called once more. -/
structure ActsAsMap (calls : List RegistryCall) (call : RegistryCall) : Prop where
  answered : call.Answered (entryAfter calls) ((builtin.after calls).call call).1
  entries : ∀ key, ((builtin.after calls).call call).2.factories[key]? =
    entryAfter (calls ++ [call]) key
  /-- A call that is refused, or only asks, changes nothing. -/
  unchanged : ((builtin.after calls).call call).1 ≠ .done →
    ((builtin.after calls).call call).2 = builtin.after calls
  /-- The names that are listed are in normal form, and none is blank. -/
  normal : ∀ name ∈ (builtin.after calls).available, normalName (some name) = name ∧ name ≠ ""
  /-- A factory that was registered is asked under every name of the same normal form, until
  something else is entered under it. -/
  registered : ∀ name factory, call = .register name (some factory) → normalName name ≠ "" →
    ∀ later : List RegistryCall, (∀ other ∈ later, other.enters? (normalName name) = none) →
      ∀ same encoding, normalName same = normalName name →
        (builtin.after (calls ++ call :: later)).create same encoding = factory encoding
  /-- Without a name the default is asked, if there is one. -/
  default : ∀ name encoding, normalName name = "" → (builtin.after calls).create name encoding =
    RegistryCall.made name encoding (entryAfter calls defaultName)
  /-- Without a name the request is refused as wrong exactly if there is no default, or the default
  refuses it in this way. -/
  refused : ∀ name encoding, normalName name = "" →
    ((∃ failure, (builtin.after calls).create name encoding = .error failure ∧
        failure.isWrongValue = true) ↔
      entryAfter calls defaultName = none ∨
        ∃ factory failure, entryAfter calls defaultName = some factory ∧
          factory encoding = .error failure ∧ failure.isWrongValue = true)

/-- **The registry is a map on normal names**, whatever was asked of it before. -/
theorem actsAsMap (calls : List RegistryCall) (call : RegistryCall) : ActsAsMap calls call where
  answered := by
    have hentries : ((builtin.after calls).factories[·]?) = entryAfter calls :=
      funext fun key => factories_after calls key
    rw [← hentries]
    exact (builtin.after calls).answered_call call
  entries key := by
    rw [← factories_after, after, after, List.foldl_append]
    rfl
  unchanged := call_of_not_done
  normal name hname := by
    rw [available, Std.TreeMap.mem_keys, Std.TreeMap.mem_iff_isSome_getElem?,
      factories_after] at hname
    obtain ⟨factory, hfactory⟩ := Option.isSome_iff_exists.1 hname
    exact normal_of_entryAfter hfactory
  registered := by
    rintro name factory rfl hname later hlater same encoding hsame
    have hkey : keyFor same = normalName name := by
      simp only [keyFor, hsame, if_neg hname]
    rw [create_after, hkey, entryAfter_register calls hname factory hlater, RegistryCall.made]
  default name encoding hname := by
    rw [create_after, keyFor_of_blank hname]
  refused name encoding hname := by
    rw [create_after, keyFor_of_blank hname]
    cases entryAfter calls defaultName with
    | none => simp [RegistryCall.made, Failure.isWrongValue]
    | some factory => simp [RegistryCall.made]

/-- A name with the sign for kelvin, in which a capital K is the same letter. -/
theorem kelvin_actsAsMap : normalName (some " \u212Aelvin") ≠ "" ∧
    normalName (some "KELVIN\u00A0") = normalName (some " \u212Aelvin") ∧
      (builtin.after ([.unregister (some "Tiktoken")] ++
        .register (some " \u212Aelvin") (some fun _ => .ok (.fixed 7)) ::
          [.register (some "kelvin") none])).create (some "KELVIN\u00A0") none =
        .ok (.fixed 7) := by
  have hname : normalName (some " \u212Aelvin") ≠ "" := by decide +kernel
  have hsame : normalName (some "KELVIN\u00A0") = normalName (some " \u212Aelvin") := by
    decide +kernel
  refine ⟨hname, hsame, ?_⟩
  refine (actsAsMap [.unregister (some "Tiktoken")]
    (.register (some " \u212Aelvin") (some fun _ => .ok (.fixed 7)))).registered _ _ rfl hname
    [.register (some "kelvin") none] ?_ _ none hsame
  intro other hother
  rw [List.mem_singleton.1 hother]
  rfl

/-- A factory under the name of the default that refuses is in its place, and still a request
without a name is refused as wrong. -/
theorem refusing_create :
    let refuse : CalculatorFactory := fun _ => .error (.factoryRefused "no luck")
    let registry := builtin.after [.register (some "tiktoken") (some refuse)]
    (registry.get? (some "tiktoken")).isSome = true ∧
      registry.create none none = .error (.factoryRefused "no luck") ∧
      Failure.isWrongValue (.factoryRefused "no luck") = true := by
  intro refuse registry
  have hname : normalName (some "tiktoken") = defaultName := by decide +kernel
  have hentry : entryAfter [.register (some "tiktoken") (some refuse)] defaultName =
      some refuse := by
    have hblank : normalName (some "tiktoken") ≠ "" := by decide +kernel
    have hentered := @entryAfter_register [] (some "tiktoken") hblank refuse [] nofun
    rwa [hname] at hentered
  refine ⟨?_, ?_, rfl⟩
  · rw [get?, hname, factories_after, hentry]
    rfl
  · rw [create_after, keyFor_of_blank (by decide +kernel), hentry, RegistryCall.made]

end CalculatorRegistry

end SourceChunks

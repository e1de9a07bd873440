import SourceChunks.Producer

/-!
# Interrupted runs

A conversation can be cut short from two sides.  The consumer may have enough, after a number
of chunks; and the calculator may give up, after a number of questions.  Either way what was
said up to then is what would have been said anyway.

* `events_run_some`, `ending_run_some`: a consumer who wants `limit` chunks hears the complete
  run up to the last of these chunks (`upToChunk`), whatever the calculator.
* `events_run_rationed`, `ending_run_rationed`: with a calculator that answers `left` questions
  the run goes on until it asks one more (`beforeQuestion`).

Both are inductions over the conversation, and hold of every conversation.
-/

namespace SourceChunks

namespace Event

/-- The events up to the chunk of the given count, and no further. -/
def upToChunk : Nat → List Event → List Event
  | 0, _ => []
  | _, [] => []
  | count + 1, .chunk delivered :: rest => .chunk delivered :: upToChunk count rest
  | count + 1, .cost text tokens :: rest => .cost text tokens :: upToChunk (count + 1) rest
  | count + 1, .request language :: rest => .request language :: upToChunk (count + 1) rest

/-- The events before the question after the given count of questions. -/
def beforeQuestion : Nat → List Event → List Event
  | _, [] => []
  | 0, .cost _ _ :: _ => []
  | count + 1, .cost text tokens :: rest => .cost text tokens :: beforeQuestion count rest
  | count, .chunk delivered :: rest => .chunk delivered :: beforeQuestion count rest
  | count, .request language :: rest => .request language :: beforeQuestion count rest

@[simp] theorem upToChunk_zero (events : List Event) : upToChunk 0 events = [] := by
  cases events <;> rfl

@[simp] theorem upToChunk_nil (count : Nat) : upToChunk count [] = [] := by
  cases count <;> rfl

@[simp] theorem beforeQuestion_nil (count : Nat) : beforeQuestion count [] = [] := by
  cases count <;> rfl

theorem upToChunk_isPrefix (count : Nat) (events : List Event) :
    upToChunk count events <+: events := by
  fun_induction upToChunk count events with
  | case1 events => exact List.nil_prefix
  | case2 => exact List.nil_prefix
  | case3 count delivered rest ih => exact (List.prefix_cons_inj _).2 ih
  | case4 count text tokens rest ih => exact (List.prefix_cons_inj _).2 ih
  | case5 count language rest ih => exact (List.prefix_cons_inj _).2 ih

theorem chunks_upToChunk (count : Nat) (events : List Event) :
    (upToChunk count events).filterMap chunk? = (events.filterMap chunk?).take count := by
  fun_induction upToChunk count events with
  | case1 events => simp
  | case2 => simp
  | case3 count delivered rest ih => simp [chunk?, ih]
  | case4 count text tokens rest ih => simpa [List.filterMap_cons, chunk?] using ih
  | case5 count language rest ih => simpa [List.filterMap_cons, chunk?] using ih

/-- Where there are enough chunks, the last of those that are wanted comes last. -/
theorem exists_upToChunk_eq {count : Nat} {events : List Event}
    (h : count + 1 ≤ (events.filterMap chunk?).length) :
    ∃ earlier delivered, upToChunk (count + 1) events = earlier ++ [.chunk delivered] := by
  induction events generalizing count with
  | nil => simp at h
  | cons event rest ih =>
    cases event with
    | chunk delivered =>
      cases count with
      | zero => exact ⟨[], delivered, by simp [upToChunk]⟩
      | succ count =>
        obtain ⟨earlier, last, hlast⟩ := ih (Nat.le_of_succ_le_succ h)
        exact ⟨.chunk delivered :: earlier, last, by rw [upToChunk, hlast, List.cons_append]⟩
    | cost text tokens =>
      obtain ⟨earlier, last, hlast⟩ := ih h
      exact ⟨.cost text tokens :: earlier, last, by rw [upToChunk, hlast, List.cons_append]⟩
    | request language =>
      obtain ⟨earlier, last, hlast⟩ := ih h
      exact ⟨.request language :: earlier, last, by rw [upToChunk, hlast, List.cons_append]⟩

/-- Where there are fewer chunks than wanted, nothing is left out. -/
theorem upToChunk_eq_self {count : Nat} {events : List Event}
    (h : (events.filterMap chunk?).length < count) : upToChunk count events = events := by
  obtain ⟨count, rfl⟩ := Nat.exists_eq_add_of_le' (Nat.zero_lt_of_lt h)
  induction events generalizing count with
  | nil => exact upToChunk_nil _
  | cons event rest ih =>
    cases event with
    | chunk delivered =>
      have hrest : (rest.filterMap chunk?).length < count := Nat.lt_of_succ_lt_succ h
      obtain ⟨count, rfl⟩ := Nat.exists_eq_add_of_le' (Nat.zero_lt_of_lt hrest)
      rw [upToChunk, ih count hrest]
    | cost text tokens => rw [upToChunk, ih count h]
    | request language => rw [upToChunk, ih count h]

theorem questions_beforeQuestion (count : Nat) (events : List Event) :
    (beforeQuestion count events).filterMap cost? = (events.filterMap cost?).take count := by
  induction events generalizing count with
  | nil => simp
  | cons event rest ih =>
    cases event with
    | chunk delivered =>
      rw [beforeQuestion, List.filterMap_cons_none rfl, List.filterMap_cons_none rfl, ih]
    | cost text tokens =>
      cases count with
      | zero => simp [beforeQuestion]
      | succ count => simp [beforeQuestion, cost?, ih]
    | request language =>
      rw [beforeQuestion, List.filterMap_cons_none rfl, List.filterMap_cons_none rfl, ih]

/-- Where more is asked, the stretch ends right before the question that is too many. -/
theorem exists_eq_beforeQuestion {count : Nat} {events : List Event}
    (h : count < (events.filterMap cost?).length) :
    ∃ text tokens rest, events = beforeQuestion count events ++ .cost text tokens :: rest := by
  induction events generalizing count with
  | nil => simp at h
  | cons event later ih =>
    cases event with
    | chunk delivered =>
      obtain ⟨text, tokens, rest, hlater⟩ := ih h
      exact ⟨text, tokens, rest, by rw [beforeQuestion, List.cons_append, ← hlater]⟩
    | cost text tokens =>
      cases count with
      | zero => exact ⟨text, tokens, later, by simp [beforeQuestion]⟩
      | succ count =>
        obtain ⟨text', tokens', rest, hlater⟩ := ih (Nat.lt_of_succ_lt_succ h)
        exact ⟨text', tokens', rest, by rw [beforeQuestion, List.cons_append, ← hlater]⟩
    | request language =>
      obtain ⟨text, tokens, rest, hlater⟩ := ih h
      exact ⟨text, tokens, rest, by rw [beforeQuestion, List.cons_append, ← hlater]⟩

/-- Where no more is asked, the stretch is everything. -/
theorem beforeQuestion_eq_self {count : Nat} {events : List Event}
    (h : (events.filterMap cost?).length ≤ count) : beforeQuestion count events = events := by
  induction events generalizing count with
  | nil => exact beforeQuestion_nil count
  | cons event later ih =>
    cases event with
    | chunk delivered => rw [beforeQuestion, ih h]
    | cost text tokens =>
      cases count with
      | zero => simp [cost?] at h
      | succ count => rw [beforeQuestion, ih (Nat.le_of_succ_le_succ h)]
    | request language => rw [beforeQuestion, ih h]

end Event

/-- Fixed costs that are told a number of times; then the calculator gives up. -/
structure RationedCosts where
  cost : String → Int
  left : Nat
  failure : Failure

instance : TokenCalculator RationedCosts where
  count calculator text :=
    match calculator.left with
    | 0 => (.error calculator.failure, calculator)
    | left + 1 => (.ok (calculator.cost text), { calculator with left })

namespace Producer

variable {κ α : Type} [TokenCalculator κ]

theorem run_zero (calculator : κ) (producer : Producer α) :
    producer.run (some 0) calculator = ⟨[], .stopped, calculator⟩ := by
  unfold run
  exact if_pos rfl

/-- **Stopping early.**  A consumer who wants a number of chunks hears the complete run up to
the last of them. -/
theorem events_run_some (producer : Producer α) (limit : Nat) (calculator : κ) :
    (producer.run (some limit) calculator).events =
      Event.upToChunk limit (producer.run none calculator).events := by
  induction producer generalizing limit calculator with
  | done value =>
    cases limit with
    | zero => rw [run_zero, Event.upToChunk_zero]
    | succ limit => simp [run]
  | fail failure =>
    cases limit with
    | zero => rw [run_zero, Event.upToChunk_zero]
    | succ limit => simp [run]
  | emit chunk rest ih =>
    cases limit with
    | zero => rw [run_zero, Event.upToChunk_zero]
    | succ limit =>
      have hrest := ih limit calculator
      simp [run, Trace.after, Event.upToChunk, hrest]
  | request language rest ih =>
    cases limit with
    | zero => rw [run_zero, Event.upToChunk_zero]
    | succ limit =>
      have hrest := ih (limit + 1) calculator
      simp [run, Trace.after, Event.upToChunk, hrest]
  | price text rest ih =>
    cases limit with
    | zero => rw [run_zero, Event.upToChunk_zero]
    | succ limit =>
      rw [run, run, if_neg (by simp), if_neg (by simp)]
      split
      · next tokens calculator' heq =>
        have hrest := ih tokens (limit + 1) calculator'
        simp [Trace.after, Event.upToChunk, hrest]
      · simp

/-- A run that has delivered what was wanted has stopped; any other ends as the complete run
does. -/
theorem ending_run_some (producer : Producer α) (limit : Nat) (calculator : κ) :
    (limit ≤ (producer.run none calculator).chunks.length →
      (producer.run (some limit) calculator).ending = .stopped) ∧
    ((producer.run none calculator).chunks.length < limit →
      (producer.run (some limit) calculator).ending =
        (producer.run none calculator).ending) := by
  induction producer generalizing limit calculator with
  | done value =>
    cases limit with
    | zero => simp [run_zero]
    | succ limit => simp [run, Trace.chunks]
  | fail failure =>
    cases limit with
    | zero => simp [run_zero]
    | succ limit => simp [run, Trace.chunks]
  | emit chunk rest ih =>
    cases limit with
    | zero => simp [run_zero]
    | succ limit =>
      have hrest := ih limit calculator
      simpa [run, Trace.after, Trace.chunks, List.filterMap_cons, Event.chunk?] using hrest
  | request language rest ih =>
    cases limit with
    | zero => simp [run_zero]
    | succ limit =>
      have hrest := ih (limit + 1) calculator
      simpa [run, Trace.after, Trace.chunks, List.filterMap_cons, Event.chunk?] using hrest
  | price text rest ih =>
    cases limit with
    | zero => simp [run_zero]
    | succ limit =>
      rw [run, run, if_neg (by simp), if_neg (by simp)]
      split
      · next tokens calculator' heq =>
        have hrest := ih tokens (limit + 1) calculator'
        simpa [Trace.after, Trace.chunks, List.filterMap_cons, Event.chunk?] using hrest
      · simp [Trace.chunks]

/-- **Failing late.**  Where the calculator gives up after a number of questions, the run is
the complete one up to the question that is too many. -/
theorem events_run_rationed (producer : Producer α) (cost : String → Int) (left : Nat)
    (failure : Failure) :
    (producer.run none (RationedCosts.mk cost left failure)).events =
      Event.beforeQuestion left (producer.run none (CostFunction.mk cost)).events := by
  induction producer generalizing left with
  | done value => simp [run]
  | fail reason => simp [run]
  | emit chunk rest ih => simp [run, Trace.after, Event.beforeQuestion, ih left]
  | request language rest ih => simp [run, Trace.after, Event.beforeQuestion, ih left]
  | price text rest ih =>
    cases left with
    | zero => simp [run, TokenCalculator.count, Trace.after, Event.beforeQuestion]
    | succ left =>
      simp [run, TokenCalculator.count, Trace.after, Event.beforeQuestion, ih (cost text) left]

/-- The run fails with the calculator if more is asked than it answers, and ends as the
complete run does otherwise. -/
theorem ending_run_rationed (producer : Producer α) (cost : String → Int) (left : Nat)
    (failure : Failure) :
    (left < (producer.run none (CostFunction.mk cost)).questions.length →
      (producer.run none (RationedCosts.mk cost left failure)).ending = .failed failure) ∧
    ((producer.run none (CostFunction.mk cost)).questions.length ≤ left →
      (producer.run none (RationedCosts.mk cost left failure)).ending =
        (producer.run none (CostFunction.mk cost)).ending) := by
  induction producer generalizing left with
  | done value => simp [run, Trace.questions]
  | fail reason => simp [run, Trace.questions]
  | emit chunk rest ih =>
    simpa [run, Trace.after, Trace.questions, List.filterMap_cons, Event.cost?] using ih left
  | request language rest ih =>
    simpa [run, Trace.after, Trace.questions, List.filterMap_cons, Event.cost?] using ih left
  | price text rest ih =>
    cases left with
    | zero => simp [run, TokenCalculator.count, Trace.after, Trace.questions, Event.cost?]
    | succ left =>
      simpa [run, TokenCalculator.count, Trace.after, Trace.questions, Event.cost?] using
        ih (cost text) left

end Producer

end SourceChunks

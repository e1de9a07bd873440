import SourceChunks.Proofs.Arena.Layout
import SourceChunks.Proofs.InterruptedRun
import SourceChunks.Proofs.Walk.Deliveries

/-!
# Interrupting the walk

A walk may be cut short by the consumer of its chunks, or by a calculator that gives up.
Neither changes anything of what came before (`run_interrupted`).

What interrupted conversations have in common with complete ones holds of any conversation.
What the walk adds is that its complete run comes to an end and never fails; so a run that
fails has failed with its calculator, and at the question that was too many.
-/

namespace SourceChunks

/-- The record of a consumer who takes a number of chunks and stops, beside the record of the
complete run. -/
structure StopsEarly {κ α : Type} (full taken : Trace κ α) (count : Nat) : Prop where
  chunks : taken.chunks = full.chunks.take count
  questions : taken.questions <+: full.questions
  /-- Chunks and questions come in the order in which they come in the complete run. -/
  events : taken.events <+: full.events
  /-- Nothing happens where nothing is wanted. -/
  nothing : count = 0 → taken.events = []
  /-- Nothing happens after the last chunk that is wanted. -/
  lazy : 0 < count → count ≤ full.chunks.length →
    ∃ earlier chunk, taken.events = earlier ++ [.chunk chunk]
  /-- A consumer who wants more than there is hears everything. -/
  complete : full.chunks.length < count →
    taken.events = full.events ∧ taken.ending = full.ending

/-- The record of a run whose calculator answers a number of questions and gives up, beside
the record of the complete run. -/
structure FailsLate {κ κ' α : Type} (full : Trace κ α) (cut : Trace κ' α) (count : Nat)
    (failure : Failure) : Prop where
  fails_iff : cut.failure?.isSome = true ↔ count < full.questions.length
  /-- The run fails with the calculator. -/
  failure : count < full.questions.length → cut.ending = .failed failure
  questions : cut.questions = full.questions.take count
  /-- What happens before the failure is what happens before the question that is too many. -/
  events : count < full.questions.length →
    ∃ text tokens rest, full.events = cut.events ++ .cost text tokens :: rest
  /-- A calculator that answers as often as it is asked is never missed. -/
  complete : full.questions.length ≤ count →
    cut.events = full.events ∧ cut.ending = full.ending

namespace Producer

variable {α : Type}

theorem stopsEarly {κ : Type} [TokenCalculator κ] (producer : Producer α) (calculator : κ)
    (count : Nat) :
    StopsEarly (producer.run none calculator) (producer.run (some count) calculator) count where
  chunks := by
    rw [Trace.chunks, events_run_some, Event.chunks_upToChunk]
    rfl
  questions := by
    rw [Trace.questions, events_run_some]
    exact (Event.upToChunk_isPrefix _ _).filterMap _
  events := by
    rw [events_run_some]
    exact Event.upToChunk_isPrefix _ _
  nothing := by
    rintro rfl
    rw [events_run_some, Event.upToChunk_zero]
  lazy hpos hle := by
    obtain ⟨count, rfl⟩ := Nat.exists_eq_add_of_le' hpos
    rw [events_run_some]
    exact Event.exists_upToChunk_eq hle
  complete hlt := by
    refine ⟨?_, (producer.ending_run_some count calculator).2 hlt⟩
    rw [events_run_some]
    exact Event.upToChunk_eq_self hlt

/-- A run that otherwise ends with a value fails with its calculator only. -/
theorem failsLate (producer : Producer α) (cost : String → Int) (count : Nat) (failure : Failure)
    {value : α} (hdone : (producer.run none (CostFunction.mk cost)).ending = .done value) :
    FailsLate (producer.run none (CostFunction.mk cost))
      (producer.run none (RationedCosts.mk cost count failure)) count failure := by
  obtain ⟨hfailed, hended⟩ := producer.ending_run_rationed cost count failure
  have hevents := producer.events_run_rationed cost count failure
  refine ⟨⟨fun hfails => ?_, fun hlt => ?_⟩, hfailed, ?_, fun hlt => ?_, fun hle => ?_⟩
  · by_contra hnot
    rw [Trace.failure?, hended (Nat.le_of_not_lt hnot), hdone] at hfails
    exact Bool.noConfusion hfails
  · rw [Trace.failure?, hfailed hlt]
    rfl
  · rw [Trace.questions, hevents]
    exact Event.questions_beforeQuestion _ _
  · obtain ⟨text, tokens, rest, hsplit⟩ := Event.exists_eq_beforeQuestion hlt
    rw [hevents]
    exact ⟨text, tokens, rest, hsplit⟩
  · rw [hevents]
    exact ⟨Event.beforeQuestion_eq_self hle, hended hle⟩

end Producer

namespace ChunkWalk

/-- **Interruptions only cut the stream.**  On an arena that is a tree, whatever the profile,
the budget and the costs, the complete run comes to its end.  A consumer who takes some of
its chunks gets the first of them, after no more questions than they take.  A calculator that
gives up makes the run fail exactly where it asks once too often, and what was delivered
before is what the complete run delivers before that question. -/
theorem run_interrupted (walk : ChunkWalk) (cost : String → Int) (tree : Tree (Nat × Node))
    (h : walk.arena.IsTree tree) :
    (walk.chunks.run none (CostFunction.mk cost)).ending = .done () ∧
      (∀ count, StopsEarly (walk.chunks.run none (CostFunction.mk cost))
        (walk.chunks.run (some count) (CostFunction.mk cost)) count) ∧
      ∀ count failure, FailsLate (walk.chunks.run none (CostFunction.mk cost))
        (walk.chunks.run none (RationedCosts.mk cost count failure)) count failure := by
  obtain ⟨hdone, -⟩ := walk.run_eq_deliveries cost h
  refine ⟨hdone, fun count => ?_, fun count failure => ?_⟩
  · exact walk.chunks.stopsEarly (CostFunction.mk cost) count
  · exact walk.chunks.failsLate cost count failure hdone

/-- A language with classes, whose methods stand in a body. -/
def membersProfile : Profile := .ofTypes "members" fun
  | .comments => ["comment"]
  | .classes | .classContainers => ["class"]
  | .classBodies | .methodContainers => ["body"]
  | .functions | .functionDeclarations => ["method"]
  | .functionBodies => ["block"]
  | .braceBodies => []

/-- A comment, and a class with two methods. -/
def membersParse : Tree Symbol where
  label := ⟨"module", ⟨0, 37, ⟨0, 0⟩, ⟨3, 12⟩⟩⟩
  children := .ofTrees [
    ⟨⟨"comment", ⟨0, 2, ⟨0, 0⟩, ⟨0, 2⟩⟩⟩, .nil⟩,
    ⟨⟨"class", ⟨3, 37, ⟨1, 0⟩, ⟨3, 12⟩⟩⟩, .ofTrees [
      ⟨⟨"body", ⟨13, 37, ⟨2, 1⟩, ⟨3, 12⟩⟩⟩, .ofTrees [
        ⟨⟨"method", ⟨13, 24, ⟨2, 1⟩, ⟨2, 12⟩⟩⟩, .ofTrees [
          ⟨⟨"block", ⟨20, 24, ⟨2, 8⟩, ⟨2, 12⟩⟩⟩, .nil⟩]⟩,
        ⟨⟨"method", ⟨26, 37, ⟨3, 1⟩, ⟨3, 12⟩⟩⟩, .ofTrees [
          ⟨⟨"block", ⟨33, 37, ⟨3, 8⟩, ⟨3, 12⟩⟩⟩, .nil⟩]⟩]⟩]⟩]

/-- The walk over them with a budget for which both methods are taken out of the outline. -/
def membersWalk : ChunkWalk where
  arena := .ofParse "#a\nclass C:\n def f: pass\n def g: pass".toUTF8.toList membersParse
  profile := membersProfile
  budget := 8

theorem membersWalk_interrupted : ∃ tree, membersWalk.arena.IsTree tree ∧
    (membersWalk.chunks.run none (CostFunction.mk fun text => text.length)).ending = .done () ∧
      (∀ count, StopsEarly
        (membersWalk.chunks.run none (CostFunction.mk fun text => text.length))
        (membersWalk.chunks.run (some count) (CostFunction.mk fun text => text.length)) count) ∧
      ∀ count failure, FailsLate
        (membersWalk.chunks.run none (CostFunction.mk fun text => text.length))
        (membersWalk.chunks.run none (RationedCosts.mk (fun text => text.length) count failure))
        count failure := by
  obtain ⟨tree, tidy, -⟩ := Arena.exists_tidy_ofTree
    "#a\nclass C:\n def f: pass\n def g: pass".toUTF8.toList (membersParse.map Symbol.element)
  exact ⟨tree, tidy.isTree, membersWalk.run_interrupted _ tree tidy.isTree⟩

end ChunkWalk

end SourceChunks

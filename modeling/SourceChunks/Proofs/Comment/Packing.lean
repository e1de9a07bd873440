import Mathlib.Data.List.Chain
import SourceChunks.Comment.Buffer

/-!
# Packing comments

The comment buffer takes comments one after the other and decides at each whether those that
wait go first.  It looks at what they cost together and at nothing else, so what comes out is
known from the costs: `greedy` cuts a list of comments in the way the buffer does.

* `Waits`: what holds of the buffer at every moment, with `Waits.add` for one comment and
  `Waits.flush` for sending off.
* `exists_waits_addAll`: a run of the buffer sends off the greedy groups but the last, which waits.
* `isChain_greedy`: no group could have taken the comment after it as well.
* `length_le_of_isChain`: where costs are not negative, no way of cutting has fewer groups than
  one in which that is so.  Reading both ways from the front, the other is never ahead: where one
  of its groups ended later, it would hold a whole greedy group and the comment after it.
* `addAll_packed`: all of this of a fresh buffer.

A comment that is too dear for any company makes a group alone, so a group either is a single
comment or costs at most the budget less the headroom (`Fits`).
-/

namespace SourceChunks

/-- A comment with what it costs. -/
structure PricedComment where
  text : String
  cost : Int
  deriving DecidableEq, Repr

namespace PricedComment

/-- What comments cost, counted one by one. -/
def total : List PricedComment → Int
  | [] => 0
  | comment :: later => comment.cost + total later

@[simp] theorem total_nil : total [] = 0 := rfl

@[simp] theorem total_cons (comment : PricedComment) (later : List PricedComment) :
    total (comment :: later) = comment.cost + total later := rfl

@[simp] theorem total_append (comments later : List PricedComment) :
    total (comments ++ later) = total comments + total later := by
  induction comments with
  | nil => exact (Int.zero_add _).symm
  | cons comment rest ih => rw [List.cons_append, total_cons, total_cons, ih, Int.add_assoc]

theorem total_nonneg {comments : List PricedComment} (h : ∀ comment ∈ comments, 0 ≤ comment.cost) :
    0 ≤ total comments := by
  induction comments with
  | nil => exact Int.le_refl 0
  | cons comment rest ih =>
    obtain ⟨hcost, hrest⟩ := List.forall_mem_cons.1 h
    exact Int.add_nonneg hcost (ih hrest)

/-! ## Groups -/

/-- The comments are a single one, or leave free of the budget what has to stay free. -/
def Fits (budget : Int) (group : List PricedComment) : Prop :=
  group.length ≤ 1 ∨ total group ≤ budget - CommentBuffer.headroom

instance (budget : Int) (group : List PricedComment) : Decidable (Fits budget group) :=
  inferInstanceAs (Decidable (_ ∨ _))

/-- The groups are a way of cutting the comments: they follow one another, none is empty, and
each fits. -/
structure IsCutting (budget : Int) (comments : List PricedComment)
    (groups : List (List PricedComment)) : Prop where
  flatten : groups.flatten = comments
  nonempty : [] ∉ groups
  fits : ∀ group ∈ groups, Fits budget group

/-- The group could not have taken the first comment of the next as well. -/
def Overflows (budget : Int) (group next : List PricedComment) : Prop :=
  ∀ comment, next.head? = some comment →
    budget - CommentBuffer.headroom < total group + comment.cost

/-- Comments as a group, if there are any. -/
def asGroup (comments : List PricedComment) : List (List PricedComment) :=
  if comments = [] then [] else [comments]

theorem asGroup_of_ne_nil {comments : List PricedComment} (h : comments ≠ []) :
    asGroup comments = [comments] := by
  rw [asGroup, if_neg h]

@[simp] theorem flatten_asGroup (comments : List PricedComment) :
    (asGroup comments).flatten = comments := by
  by_cases h : comments = []
  · subst h
    rfl
  · rw [asGroup_of_ne_nil h, List.flatten_singleton]

theorem mem_asGroup {comments group : List PricedComment} (h : group ∈ asGroup comments) :
    group = comments ∧ group ≠ [] := by
  by_cases hempty : comments = []
  · subst hempty
    exact absurd h List.not_mem_nil
  · rw [asGroup_of_ne_nil hempty, List.mem_singleton] at h
    exact ⟨h, h ▸ hempty⟩

/-- The groups in which comments leave when some wait already: those that wait go as soon as the
next one would take them past what may be used. -/
def greedy (budget : Int) : List PricedComment → List PricedComment → List (List PricedComment)
  | waiting, [] => asGroup waiting
  | waiting, comment :: later =>
    if budget - CommentBuffer.headroom < total waiting + comment.cost then
      asGroup waiting ++ greedy budget [comment] later
    else greedy budget (waiting ++ [comment]) later

variable {budget : Int} {waiting comments : List PricedComment}

theorem Fits.append_singleton {comment : PricedComment}
    (h : ¬ budget - CommentBuffer.headroom < total waiting + comment.cost) :
    Fits budget (waiting ++ [comment]) := by
  refine Or.inr ?_
  rw [total_append, total_cons, total_nil, Int.add_zero]
  exact Int.not_lt.1 h

/-- Greedy groups are a way of cutting. -/
theorem isCutting_greedy (h : Fits budget waiting) (comments : List PricedComment) :
    IsCutting budget (waiting ++ comments) (greedy budget waiting comments) := by
  induction comments generalizing waiting with
  | nil =>
    rw [greedy, List.append_nil]
    exact ⟨flatten_asGroup waiting, fun hnil => (mem_asGroup hnil).2 rfl,
      fun group hgroup => (mem_asGroup hgroup).1 ▸ h⟩
  | cons comment later ih =>
    rw [greedy]
    split
    · next hover =>
      have hsingle : Fits budget [comment] := Or.inl (Nat.le_refl 1)
      have hrest := ih hsingle
      refine ⟨?_, ?_, ?_⟩
      · rw [List.flatten_append, flatten_asGroup, hrest.flatten]
        rfl
      · rw [List.mem_append]
        exact fun hnil => hnil.elim (fun hnil => (mem_asGroup hnil).2 rfl) hrest.nonempty
      · intro group hgroup
        rcases List.mem_append.1 hgroup with hgroup | hgroup
        · exact (mem_asGroup hgroup).1 ▸ h
        · exact hrest.fits group hgroup
    · next hunder =>
      have hrest := ih (Fits.append_singleton hunder)
      rwa [List.append_assoc] at hrest

/-- The first greedy group begins with what waits. -/
theorem head?_greedy (budget : Int) (waiting comments : List PricedComment) :
    ∀ group, (greedy budget waiting comments).head? = some group →
      group.head? = (waiting ++ comments).head? := by
  induction comments generalizing waiting with
  | nil =>
    intro group hgroup
    rw [List.append_nil, (mem_asGroup (List.mem_of_mem_head? hgroup)).1]
  | cons comment later ih =>
    intro group hgroup
    rw [greedy] at hgroup
    split at hgroup
    · by_cases hempty : waiting = []
      · subst hempty
        exact ih [comment] group hgroup
      · rw [asGroup_of_ne_nil hempty] at hgroup
        obtain rfl := Option.some.inj hgroup
        exact (List.head?_append_of_ne_nil _ hempty).symm
    · have hrest := ih (waiting ++ [comment]) group hgroup
      rwa [List.append_assoc] at hrest

/-- **No greedy group could have taken the comment after it as well.** -/
theorem isChain_greedy (budget : Int) (waiting comments : List PricedComment) :
    (greedy budget waiting comments).IsChain (Overflows budget) := by
  induction comments generalizing waiting with
  | nil =>
    rw [greedy, asGroup]
    split
    · exact List.IsChain.nil
    · exact List.isChain_singleton _
  | cons comment later ih =>
    rw [greedy]
    split
    · next hover =>
      by_cases hempty : waiting = []
      · subst hempty
        exact ih [comment]
      · rw [asGroup_of_ne_nil hempty, List.singleton_append, List.isChain_cons]
        refine ⟨fun next hnext first hfirst => ?_, ih [comment]⟩
        rw [head?_greedy budget [comment] later next hnext] at hfirst
        obtain rfl := Option.some.inj hfirst
        exact hover
    · exact ih (waiting ++ [comment])

/-- What comes after the first group is cut by the other groups. -/
theorem IsCutting.tail {group : List PricedComment} {groups : List (List PricedComment)}
    (h : IsCutting budget comments (group :: groups)) :
    IsCutting budget groups.flatten groups where
  flatten := rfl
  nonempty hnil := h.nonempty (List.mem_cons_of_mem _ hnil)
  fits other hother := h.fits other (List.mem_cons_of_mem _ hother)

/-- A group that could not have taken more could not have taken the comment after it. -/
theorem lt_of_overflows {group : List PricedComment} {rest : List (List PricedComment)}
    {comment : PricedComment} {more : List PricedComment} (hrest : [] ∉ rest)
    (hover : ∀ next ∈ rest.head?, Overflows budget group next)
    (heq : rest.flatten = comment :: more) :
    budget - CommentBuffer.headroom < total group + comment.cost := by
  cases rest with
  | nil => exact absurd heq (List.cons_ne_nil _ _).symm
  | cons next rest =>
    have hnext : next ≠ [] := fun hnil => hrest (hnil ▸ List.mem_cons_self)
    refine hover next rfl comment ?_
    rw [← List.head?_append_of_ne_nil next hnext, ← List.flatten_cons, heq]
    rfl

/-- What holds a group and also the comment that the group could not have taken does not fit. -/
theorem not_fits_of_overflows {front group more : List PricedComment} {comment : PricedComment}
    (hne : group ≠ []) (hover : budget - CommentBuffer.headroom < total group + comment.cost)
    (hfront : ∀ other ∈ front, 0 ≤ other.cost) (hmore : ∀ other ∈ more, 0 ≤ other.cost) :
    ¬ Fits budget (front ++ group ++ comment :: more) := by
  rintro (hsingle | hcheap)
  · have hlength := List.length_pos_of_ne_nil hne
    rw [List.length_append, List.length_append, List.length_cons] at hsingle
    omega
  · have hfront := total_nonneg hfront
    have hmore := total_nonneg hmore
    rw [total_append, total_append, total_cons] at hcheap
    omega

/-- **No way of cutting has fewer groups** than one whose groups could not have taken more.  The
other may have used some comments in front already. -/
theorem length_le_of_isChain {groups others : List (List PricedComment)}
    (hnonempty : [] ∉ groups) (hchain : groups.IsChain (Overflows budget))
    {front : List PricedComment} (hcosts : ∀ comment ∈ front ++ groups.flatten, 0 ≤ comment.cost)
    (hothers : IsCutting budget (front ++ groups.flatten) others) :
    groups.length ≤ others.length := by
  induction groups generalizing front others with
  | nil => exact Nat.zero_le _
  | cons group rest ih =>
    have hne : group ≠ [] := fun heq => hnonempty (heq ▸ List.mem_cons_self)
    have hrest : [] ∉ rest := fun hnil => hnonempty (List.mem_cons_of_mem _ hnil)
    obtain ⟨hover, hchain⟩ := List.isChain_cons.1 hchain
    have hflatten := hothers.flatten
    rw [List.flatten_cons, ← List.append_assoc] at hflatten hcosts
    cases others with
    | nil =>
      have hnil : front ++ group = [] := (List.append_eq_nil_iff.1 hflatten.symm).1
      exact absurd (List.append_eq_nil_iff.1 hnil).2 hne
    | cons other later =>
      refine Nat.succ_le_succ ?_
      have hlater := hothers.tail
      rw [List.flatten_cons] at hflatten
      -- where the other group ends by the end of this one, the rest of this one is in front
      rcases List.append_eq_append_iff.1 hflatten with ⟨left, hleft, heq⟩ | ⟨more, hother, heq⟩
      · refine ih hrest hchain (fun comment hmem => hcosts comment ?_) (heq ▸ hlater)
        rw [hleft, List.append_assoc]
        exact List.mem_append_right _ hmem
      · cases more with
        | nil =>
          have hcut : IsCutting budget ([] ++ rest.flatten) later := heq ▸ hlater
          exact ih hrest hchain (fun comment hmem => hcosts comment (List.mem_append_right _ hmem))
            hcut
        | cons comment more =>
          have hfits := hothers.fits other List.mem_cons_self
          rw [hother] at hfits
          refine absurd hfits (not_fits_of_overflows hne (lt_of_overflows hrest hover heq)
            (fun other hmem => hcosts other ?_) (fun other hmem => hcosts other ?_))
          · exact List.mem_append_left _ (List.mem_append_left _ hmem)
          · rw [heq]
            exact List.mem_append_right _
              (List.mem_append_left _ (List.mem_cons_of_mem _ hmem))

end PricedComment

namespace CommentBuffer

open PricedComment

/-! ## The buffer -/

/-- The chunks of groups of comments, the first of which starts on the given line. -/
def chunksOf (line : Int) : List (List PricedComment) → List Chunk
  | [] => []
  | group :: later =>
    ⟨Text.joinLines (group.map (·.text)), line, line + group.length - 1⟩
      :: chunksOf (line + group.length) later

theorem length_chunksOf (line : Int) (groups : List (List PricedComment)) :
    (chunksOf line groups).length = groups.length := by
  induction groups generalizing line with
  | nil => rfl
  | cons group later ih => rw [chunksOf, List.length_cons, List.length_cons, ih]

/-- The comments that wait in the buffer, and that they make a group. -/
structure Waits (budget : Int) (waiting : List PricedComment) (buffer : CommentBuffer) : Prop where
  contents : buffer.contents = waiting.map (·.text)
  cost : buffer.cost = total waiting
  fits : Fits budget waiting

variable {budget : Int} {waiting : List PricedComment} {buffer : CommentBuffer}

theorem waits_empty (budget : Int) : Waits budget [] {} :=
  ⟨rfl, rfl, Or.inl (Nat.zero_le 1)⟩

/-- What waits is sent off as a group, and nothing waits then. -/
theorem Waits.flush (h : Waits budget waiting buffer) :
    buffer.flush.1.toList = chunksOf buffer.startLine (asGroup waiting) ∧
      buffer.flush.2.startLine = buffer.startLine + waiting.length ∧
      Waits budget [] buffer.flush.2 := by
  by_cases hempty : waiting = []
  · subst hempty
    have hflush : buffer.flush = (none, buffer) := by
      rw [CommentBuffer.flush, h.contents]
      rfl
    rw [hflush]
    exact ⟨rfl, (Int.add_zero _).symm, h⟩
  · have hcontents : buffer.contents.isEmpty = false := by
      rw [h.contents, List.isEmpty_eq_false_iff]
      exact fun hnil => hempty (List.map_eq_nil_iff.1 hnil)
    have hlength : buffer.contents.length = waiting.length := by
      rw [h.contents, List.length_map]
    have hflush : buffer.flush = (some
          ⟨Text.joinLines (waiting.map (·.text)), buffer.startLine,
            buffer.startLine + waiting.length - 1⟩,
        { contents := [], startLine := buffer.startLine + waiting.length, cost := 0 }) := by
      rw [CommentBuffer.flush, hcontents, if_neg Bool.false_ne_true, hlength, h.contents]
    rw [hflush, asGroup_of_ne_nil hempty]
    exact ⟨rfl, rfl, rfl, rfl, Or.inl (Nat.zero_le 1)⟩

/-- A comment that goes too far sends off what waits, and then waits alone. -/
theorem Waits.add_of_over (h : Waits budget waiting buffer) {comment : PricedComment}
    (hover : budget - headroom < total waiting + comment.cost) :
    (buffer.add comment.text comment.cost budget).1.toList =
        chunksOf buffer.startLine (asGroup waiting) ∧
      (buffer.add comment.text comment.cost budget).2.startLine =
        buffer.startLine + waiting.length ∧
      Waits budget [comment] (buffer.add comment.text comment.cost budget).2 := by
  obtain ⟨hsent, hline, hnothing⟩ := h.flush
  have hadd : buffer.add comment.text comment.cost budget = (buffer.flush.1,
      { buffer.flush.2 with
        contents := buffer.flush.2.contents ++ [comment.text]
        cost := comment.cost }) := by
    rw [CommentBuffer.add, h.cost, if_pos hover]
  rw [hadd]
  refine ⟨hsent, hline, ?_, ?_, Or.inl (Nat.le_refl 1)⟩
  · show buffer.flush.2.contents ++ [comment.text] = [comment.text]
    rw [hnothing.contents]
    rfl
  · exact (Int.add_zero comment.cost).symm

/-- Any other comment waits with those that do. -/
theorem Waits.add_of_under (h : Waits budget waiting buffer) {comment : PricedComment}
    (hunder : ¬ budget - headroom < total waiting + comment.cost) :
    (buffer.add comment.text comment.cost budget).1 = none ∧
      (buffer.add comment.text comment.cost budget).2.startLine = buffer.startLine ∧
      Waits budget (waiting ++ [comment]) (buffer.add comment.text comment.cost budget).2 := by
  have hadd : buffer.add comment.text comment.cost budget = (none,
      { buffer with
        contents := buffer.contents ++ [comment.text]
        cost := buffer.cost + comment.cost }) := by
    rw [CommentBuffer.add, h.cost, if_neg hunder]
  rw [hadd]
  refine ⟨rfl, rfl, ?_, ?_, Fits.append_singleton hunder⟩
  · rw [List.map_append, ← h.contents]
    rfl
  · rw [total_append, ← h.cost, total_cons, total_nil, Int.add_zero]

/-- A comment waits alone if it sends off what waits, and else with it. -/
theorem Waits.add (h : Waits budget waiting buffer) (comment : PricedComment) :
    Waits budget
      ((if (buffer.add comment.text comment.cost budget).1.isSome then [] else waiting)
        ++ [comment])
      (buffer.add comment.text comment.cost budget).2 := by
  by_cases hover : budget - headroom < total waiting + comment.cost
  · obtain ⟨hsent, -, hwaits⟩ := h.add_of_over hover
    split
    · exact hwaits
    · next hnone =>
      -- nothing is sent off only where nothing waited
      rw [Option.not_isSome_iff_eq_none.1 hnone] at hsent
      have hempty : waiting = [] := by
        by_contra hne
        rw [asGroup_of_ne_nil hne] at hsent
        exact absurd hsent (List.cons_ne_nil _ _).symm
      rw [hempty]
      exact hwaits
  · obtain ⟨hnone, -, hwaits⟩ := h.add_of_under hover
    rw [hnone]
    exact hwaits

/-- Adds comments one after the other. -/
def addAll (budget : Int) : List PricedComment → CommentBuffer → List Chunk × CommentBuffer
  | [], buffer => ([], buffer)
  | comment :: later, buffer =>
    let (flushed, buffer) := buffer.add comment.text comment.cost budget
    let (chunks, buffer) := addAll budget later buffer
    (flushed.toList ++ chunks, buffer)

theorem addAll_cons (budget : Int) (comment : PricedComment) (later : List PricedComment)
    (buffer : CommentBuffer) :
    addAll budget (comment :: later) buffer =
      ((buffer.add comment.text comment.cost budget).1.toList ++
          (addAll budget later (buffer.add comment.text comment.cost budget).2).1,
        (addAll budget later (buffer.add comment.text comment.cost budget).2).2) := rfl

theorem chunksOf_append (line : Int) (groups later : List (List PricedComment)) :
    chunksOf line (groups ++ later) =
      chunksOf line groups ++ chunksOf (line + groups.flatten.length) later := by
  induction groups generalizing line with
  | nil => exact congrArg (chunksOf · later) (Int.add_zero line).symm
  | cons group groups ih =>
    rw [List.cons_append, chunksOf, chunksOf, ih, List.cons_append, List.flatten_cons,
      List.length_append, Int.natCast_add, Int.add_assoc]

/-- **The buffer at every moment** holds the last of the greedy groups, and has sent off those
before. -/
theorem exists_waits_addAll (h : Waits budget waiting buffer) (comments : List PricedComment) :
    ∃ sent left, greedy budget waiting comments = sent ++ asGroup left ∧
      (addAll budget comments buffer).1 = chunksOf buffer.startLine sent ∧
      (addAll budget comments buffer).2.startLine =
        buffer.startLine + (sent.flatten.length : Int) ∧
      Waits budget left (addAll budget comments buffer).2 := by
  induction comments generalizing waiting buffer with
  | nil => exact ⟨[], waiting, rfl, rfl, (Int.add_zero _).symm, h⟩
  | cons comment later ih =>
    by_cases hover : budget - headroom < total waiting + comment.cost
    · obtain ⟨hsent, hline, hwaits⟩ := h.add_of_over hover
      obtain ⟨sent, left, hgroups, hchunks, hlast, hleft⟩ := ih hwaits
      refine ⟨asGroup waiting ++ sent, left, ?_, ?_, ?_, hleft⟩
      · rw [greedy, if_pos hover, hgroups, List.append_assoc]
      · rw [addAll_cons, hsent, hchunks, hline, chunksOf_append, flatten_asGroup]
      · rw [addAll_cons, hlast, hline, List.flatten_append, flatten_asGroup, List.length_append,
          Int.natCast_add, Int.add_assoc]
    · obtain ⟨hnone, hline, hwaits⟩ := h.add_of_under hover
      obtain ⟨sent, left, hgroups, hchunks, hlast, hleft⟩ := ih hwaits
      refine ⟨sent, left, ?_, ?_, ?_, hleft⟩
      · rw [greedy, if_neg hover, hgroups]
      · rw [addAll_cons, hnone, hchunks, hline]
        rfl
      · rw [addAll_cons, hlast, hline]

/-- **Packing comments.**  Comments with costs that are not negative are added to a fresh buffer
one after the other, and what waits in the end is sent off.  Their chunks are those of a way of
cutting them into single comments and groups that leave the headroom free.  No group sent off by
an addition could have taken the comment added, and there is no way of cutting with fewer groups.
At every moment the buffer has the comments that were not sent off, and knows what they cost. -/
theorem addAll_packed (budget : Int) (comments : List PricedComment)
    (hcosts : ∀ comment ∈ comments, 0 ≤ comment.cost) :
    let added := addAll budget comments {}
    ∃ sent left, added.1 = chunksOf 1 sent ∧
      added.1 ++ added.2.flush.1.toList = chunksOf 1 (sent ++ asGroup left) ∧
      IsCutting budget comments (sent ++ asGroup left) ∧
      (sent ++ asGroup left).IsChain (Overflows budget) ∧
      (∀ others, IsCutting budget comments others →
        (sent ++ asGroup left).length ≤ others.length) ∧
      added.2.flush.2.contents = [] ∧ added.2.flush.2.cost = 0 ∧
      ∀ first, first <+: comments → ∃ sent waiting, sent.flatten ++ waiting = first ∧
        (addAll budget first {}).1 = chunksOf 1 sent ∧
        (addAll budget first {}).2.contents = waiting.map (·.text) ∧
        (addAll budget first {}).2.cost = total waiting := by
  intro added
  have hstart := waits_empty budget
  obtain ⟨sent, left, hgroups, hchunks, hline, hleft⟩ := exists_waits_addAll hstart comments
  obtain ⟨hlast, -, hnothing⟩ := hleft.flush
  have hcutting : IsCutting budget comments (sent ++ asGroup left) :=
    hgroups ▸ isCutting_greedy hstart.fits comments
  have hchain : (sent ++ asGroup left).IsChain (Overflows budget) :=
    hgroups ▸ isChain_greedy budget [] comments
  refine ⟨sent, left, hchunks, ?_, hcutting, hchain, fun others hothers => ?_,
    hnothing.contents, hnothing.cost, fun first _ => ?_⟩
  · rw [show added.1 = _ from hchunks, show added.2.flush.1.toList = _ from hlast, hline,
      chunksOf_append]
  · rw [← hcutting.flatten, ← List.nil_append (List.flatten _)] at hcosts hothers
    exact length_le_of_isChain hcutting.nonempty hchain hcosts hothers
  · obtain ⟨sent, waiting, hgroups, hchunks, -, hwaits⟩ := exists_waits_addAll hstart first
    refine ⟨sent, waiting, ?_, hchunks, hwaits.contents, hwaits.cost⟩
    have hflatten := (isCutting_greedy hstart.fits first).flatten
    rw [hgroups, List.flatten_append, flatten_asGroup] at hflatten
    exact hflatten

/-- Comments of which one costs nothing and one costs more than there may be. -/
def mixedComments : List PricedComment :=
  [⟨"# a", 3⟩, ⟨"", 0⟩, ⟨"# long", 6⟩, ⟨"# b", 3⟩, ⟨"#", 1⟩]

/-- They make three chunks, and there is no way of cutting them in two. -/
theorem mixedComments_packed :
    (∀ comment ∈ mixedComments, 0 ≤ comment.cost) ∧
      (addAll 9 mixedComments {}).1 ++ (addAll 9 mixedComments {}).2.flush.1.toList =
        [⟨"# a\n", 1, 2⟩, ⟨"# long", 3, 3⟩, ⟨"# b\n#", 4, 5⟩] ∧
      ∀ others, IsCutting 9 mixedComments others → 3 ≤ others.length := by
  have hcosts : ∀ comment ∈ mixedComments, 0 ≤ comment.cost := by decide
  have hchunks : (addAll 9 mixedComments {}).1 ++ (addAll 9 mixedComments {}).2.flush.1.toList =
      [⟨"# a\n", 1, 2⟩, ⟨"# long", 3, 3⟩, ⟨"# b\n#", 4, 5⟩] := by decide
  obtain ⟨sent, left, -, hgroups, -, -, hfewest, -⟩ := addAll_packed 9 mixedComments hcosts
  have hlength : (sent ++ asGroup left).length = 3 := by
    rw [← length_chunksOf 1 (sent ++ asGroup left), ← hgroups, hchunks]
    rfl
  exact ⟨hcosts, hchunks, fun others hothers => hlength ▸ hfewest others hothers⟩

end CommentBuffer

end SourceChunks

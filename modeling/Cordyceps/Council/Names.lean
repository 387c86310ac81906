import Cordyceps.Council.Chunking
import Cordyceps.Council.Panel
import Cordyceps.Foundations.Decimal
import Mathlib.Data.List.Nodup

/-!
# One agent id for each task

The tasks of a review are the tool-capable reviewers in panel order, then every chunk with
every other reviewer, chunk by chunk. The ids built of the chunk's and the reviewer's numbers
differ from each other and from the chair's, whatever the drivers are called.
-/

namespace Cordyceps.Council

open Foundations

/-! ## The tasks -/

theorem routeAll_eq (inline : Bool) (i : ℕ) (panel : List ReviewerSpec) (buckets : Buckets) :
    routeAll inline i panel buckets =
      ⟨buckets.toolCapable ++ (panel.zipIdx i).filter fun seat ↦ toolDriven inline seat.1,
        buckets.inlineReviewers ++ (panel.zipIdx i).filter fun seat ↦ !toolDriven inline seat.1⟩ := by
  induction panel generalizing i buckets with
  | nil => simp [routeAll]
  | cons spec rest ih =>
    rw [routeAll, ih, List.zipIdx_cons]
    by_cases htool : toolDriven inline spec <;> simp [htool]

section

variable (params : CouncilParams) (target : Target)

/-- The reviewers of the panel, with their positions in it. -/
def seats : List (ReviewerSpec × ℕ) := params.reviewers.zipIdx

def usesTools (seat : ReviewerSpec × ℕ) : Bool := toolDriven (forceInline params target) seat.1

/-- Who is to review what: the whole target for tool-capable reviewers, then every chunk of it for
every other one. -/
def coverage : List ((ReviewerSpec × ℕ) × Option Chunk) :=
  ((seats params).filter (usesTools params target)).map (·, none) ++
  (chunkByLines target.source maxChunkBytes).flatMap fun chunk ↦
    ((seats params).filter fun seat ↦ !usesTools params target seat).map (·, some chunk)

theorem route_eq :
    route params target = ⟨(seats params).filter (usesTools params target),
      (seats params).filter fun seat ↦ !usesTools params target seat⟩ := by
  rw [route, routeAll_eq]
  rfl

/-- The tasks are what is to be covered, in order. -/
theorem reviewTasks_coverage :
    (reviewTasks params target).map (fun task ↦ ((task.spec, task.index), task.chunk)) =
      coverage params target := by
  rw [reviewTasks, coverage, chunksOf, route_eq, List.map_append, List.map_map, List.map_flatMap]
  by_cases hinline : ((seats params).filter fun seat ↦ !usesTools params target seat) = []
  · rw [hinline]
    simp [Function.comp_def]
  · rw [if_neg (by simpa using hinline)]
    simp only [List.map_map]
    rfl

end

/-! ## Numbers of tasks -/

/-- The number of a chunk among several. -/
def partIndex (chunk : Option Chunk) : Option ℕ :=
  (chunk.filter fun chunk ↦ 1 < chunk.total).map Chunk.index

/-- The numbers that a name is built of. -/
def numbers (entry : (ReviewerSpec × ℕ) × Option Chunk) : Option ℕ × ℕ :=
  (partIndex entry.2, entry.1.2)

theorem seats_nodup (params : CouncilParams) : ((seats params).map Prod.snd).Nodup := by
  rw [seats, List.zipIdx_map_snd]
  exact List.nodup_range'

theorem seat_unique {params : CouncilParams} {seat other : ReviewerSpec × ℕ}
    (hseat : seat ∈ seats params) (hother : other ∈ seats params) (h : seat.2 = other.2) :
    seat = other :=
  List.inj_on_of_nodup_map (seats_nodup params) hseat hother h

theorem filter_seats_nodup (params : CouncilParams) (keep : ReviewerSpec × ℕ → Bool)
    (part : Option Chunk) :
    ((((seats params).filter keep).map (·, part)).map numbers).Nodup := by
  rw [List.map_map]
  refine List.Nodup.map_on (fun seat hseat other hother h ↦ ?_)
    ((List.Nodup.of_map _ (seats_nodup params)).filter _)
  exact seat_unique (List.mem_filter.mp hseat).1 (List.mem_filter.mp hother).1
    (Prod.mk.inj h).2

/-- Different chunks of one source have different numbers. -/
theorem partIndex_ne {source : JsString} {maxBytes : ℤ} {i j : ℕ} (hij : i < j)
    (hj : j < (chunkByLines source maxBytes).length) :
    partIndex (chunkByLines source maxBytes)[i] ≠ partIndex (chunkByLines source maxBytes)[j] := by
  have hnumbered := (chunkByLines_lossless source maxBytes).numbered
  obtain ⟨hindex, htotal⟩ := hnumbered i (by omega)
  obtain ⟨hindex', htotal'⟩ := hnumbered j hj
  have hseveral : 1 < (chunkByLines source maxBytes).length := by omega
  simp only [partIndex, Option.filter_some, htotal, htotal', hseveral, decide_true, if_true,
    Option.map_some, hindex, hindex', Ne, Option.some.injEq]
  omega

theorem mem_filter_seats {params : CouncilParams} {keep : ReviewerSpec × ℕ → Bool}
    {part : Option Chunk} {pair : Option ℕ × ℕ} :
    pair ∈ (((seats params).filter keep).map (·, part)).map numbers ↔
      ∃ seat ∈ seats params, keep seat = true ∧ pair = (partIndex part, seat.2) := by
  rw [List.map_map, List.mem_map]
  constructor
  · rintro ⟨seat, hseat, rfl⟩
    exact ⟨seat, (List.mem_filter.mp hseat).1, (List.mem_filter.mp hseat).2, rfl⟩
  · rintro ⟨seat, hseat, hkeep, rfl⟩
    exact ⟨seat, List.mem_filter.mpr ⟨hseat, hkeep⟩, rfl⟩

/-- No two tasks have the same numbers. -/
theorem numbers_nodup (params : CouncilParams) (target : Target) :
    ((coverage params target).map numbers).Nodup := by
  rw [coverage, List.map_append, List.map_flatMap, List.nodup_append']
  refine ⟨filter_seats_nodup params _ none, List.nodup_flatMap.mpr ⟨?_, ?_⟩, ?_⟩
  · exact fun chunk _ ↦ filter_seats_nodup params _ (some chunk)
  · rw [List.pairwise_iff_getElem]
    intro i j hi hj hij
    change List.Disjoint _ _
    rw [List.disjoint_left]
    intro pair hpair hpair'
    obtain ⟨seat, -, -, rfl⟩ := mem_filter_seats.mp hpair
    obtain ⟨other, -, -, hsame⟩ := mem_filter_seats.mp hpair'
    exact partIndex_ne hij hj (Prod.mk.inj hsame).1
  · rw [List.disjoint_left]
    intro pair hpair hpair'
    obtain ⟨seat, hseat, htool, rfl⟩ := mem_filter_seats.mp hpair
    obtain ⟨chunk, -, hchunk⟩ := List.mem_flatMap.mp hpair'
    obtain ⟨other, hother, hinline, hsame⟩ := mem_filter_seats.mp hchunk
    rw [seat_unique hseat hother (Prod.mk.inj hsame).2] at htool
    simp [htool] at hinline

/-! ## Names -/

/-- What follows the chunk's number in a name. -/
def nameTail (task : ReviewTask) : JsString :=
  Json.decimal task.index ++ js "-" ++ task.spec.driver

theorem nameTail_inj {task other : ReviewTask} (h : nameTail task = nameTail other) :
    task.index = other.index := by
  rw [nameTail, nameTail, List.append_assoc, List.append_assoc] at h
  exact (Json.decimal_append_inj (show CodeUnit.isDigit 0x2D = false by decide) h).1

theorem reviewerName_eq (reviewId : JsString) (task : ReviewTask) :
    reviewerName reviewId task = js "council-" ++ reviewId ++
      match task.partOf with
      | some chunk =>
        js "-c" ++ (Json.decimal chunk.index ++ (js "-reviewer-" ++ nameTail task))
      | none => js "-reviewer-" ++ nameTail task := by
  rw [reviewerName]
  cases task.partOf <;> simp [nameTail]

theorem reviewerName_numbers (reviewId : JsString) {task other : ReviewTask}
    (h : reviewerName reviewId task = reviewerName reviewId other) :
    task.partOf.map Chunk.index = other.partOf.map Chunk.index ∧ task.index = other.index := by
  rw [reviewerName_eq, reviewerName_eq] at h
  have htail := List.append_cancel_left h
  cases htask : task.partOf with
  | none =>
    cases hother : other.partOf with
    | none =>
      rw [htask, hother] at htail
      exact ⟨rfl, nameTail_inj (List.append_cancel_left htail)⟩
    | some chunk =>
      rw [htask, hother] at htail
      exact absurd (List.cons.inj (List.cons.inj htail).2).1 (by decide)
  | some part =>
    cases hother : other.partOf with
    | none =>
      rw [htask, hother] at htail
      exact absurd (List.cons.inj (List.cons.inj htail).2).1 (by decide)
    | some chunk =>
      rw [htask, hother] at htail
      obtain ⟨hindex, hrest⟩ := Json.decimal_append_inj
        (show CodeUnit.isDigit 0x2D = false by decide) (List.append_cancel_left htail)
      exact ⟨congrArg some hindex, nameTail_inj (List.append_cancel_left hrest)⟩

theorem reviewerName_ne_chairName (reviewId : JsString) (task : ReviewTask) :
    reviewerName reviewId task ≠ chairName reviewId := by
  rw [reviewerName_eq, chairName]
  intro h
  have htail := List.append_cancel_left h
  cases htask : task.partOf with
  | none =>
    rw [htask] at htail
    exact absurd (List.cons.inj (List.cons.inj htail).2).1 (by decide)
  | some part =>
    rw [htask] at htail
    have hdigits := (List.cons.inj (List.cons.inj htail).2).2
    cases hindex : Json.decimal part.index with
    | nil => exact Json.decimal_ne_nil _ hindex
    | cons digit digits =>
      rw [hindex] at hdigits
      have hdigit : digit.isDigit = true :=
        Json.isDigit_of_mem_decimal (hindex ▸ List.mem_cons_self)
      rw [(List.cons.inj hdigits).1] at hdigit
      exact absurd hdigit (by decide)

/-- All ids that a review may request. -/
def requestedIds (params : CouncilParams) (target : Target) (reviewId : JsString) :
    List JsString :=
  (reviewTasks params target).map (reviewerName reviewId) ++ [chairName reviewId]

theorem requestedIds_nodup (params : CouncilParams) (target : Target) (reviewId : JsString) :
    (requestedIds params target reviewId).Nodup := by
  have hnumbers := numbers_nodup params target
  rw [← reviewTasks_coverage, List.map_map] at hnumbers
  rw [requestedIds, List.nodup_append']
  refine ⟨?_, List.nodup_singleton _, ?_⟩
  · refine List.pairwise_map.mpr ((List.pairwise_map.mp hnumbers).imp ?_)
    intro task other hne hname
    obtain ⟨hpart, hindex⟩ := reviewerName_numbers reviewId hname
    exact hne (Prod.ext hpart hindex)
  · rw [List.disjoint_singleton]
    intro hmem
    obtain ⟨task, -, hname⟩ := List.mem_map.mp hmem
    exact reviewerName_ne_chairName reviewId task hname

end Cordyceps.Council

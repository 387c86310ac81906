import Cordyceps.Foundations.Regex

/-!
# Matching with a continuation

A matcher is the pattern followed by what comes after it: `run` gives the first way to match
that the continuation accepts. Patterns in sequence are continuations of each other, and a
pattern that can match in one way only, or whose continuation leaves it one way only, just
moves the cursor.
-/

namespace Foundations

/-- The cursor behind the next units. -/
def Cursor.skip (count : ℕ) (cursor : Cursor) : Cursor :=
  { cursor with
    passed := (cursor.ahead.take count).reverse ++ cursor.passed
    ahead := cursor.ahead.drop count }

@[simp]
theorem Cursor.skip_zero (cursor : Cursor) : cursor.skip 0 = cursor := rfl

theorem Cursor.skip_skip (first second : ℕ) (cursor : Cursor) :
    (cursor.skip first).skip second = cursor.skip (first + second) := by
  simp only [Cursor.skip, List.drop_drop, Cursor.mk.injEq, and_true]
  rw [List.take_add, List.reverse_append, List.append_assoc]

theorem Cursor.ahead_skip_takeWhile (accepts : CodeUnit → Bool) (cursor : Cursor) :
    (cursor.skip (cursor.ahead.takeWhile accepts).length).ahead =
      cursor.ahead.dropWhile accepts := by
  have hdrop := @List.drop_left _ (cursor.ahead.takeWhile accepts) (cursor.ahead.dropWhile accepts)
  rwa [List.takeWhile_append_dropWhile] at hdrop

namespace Regex

variable {Outcome : Type*}

/-- The first way to match a pattern that `next` accepts. -/
def run (pattern : Regex) (next : Cursor → Option Outcome) (cursor : Cursor) : Option Outcome :=
  (pattern.results cursor).findSome? next

theorem map_matchAt (read : Match → Outcome) (pattern : Regex) (passed ahead : JsString) :
    (pattern.matchAt passed ahead).map read =
      pattern.run (fun reached ↦ some (read
        { before := passed.reverse
          matched := (reached.passed.take (reached.passed.length - passed.length)).reverse
          after := reached.ahead
          captures := reached.captures })) ⟨passed, ahead, []⟩ := by
  rw [matchAt, run]
  cases pattern.results ⟨passed, ahead, []⟩ <;> rfl

theorem run_empty (next : Cursor → Option Outcome) : run .empty next = next := by
  funext cursor
  simp [run, results]

theorem run_seq (first second : Regex) (next : Cursor → Option Outcome) :
    run (.seq first second) next = run first (run second next) := by
  funext cursor
  rw [run, results, run]
  induction first.results cursor with
  | nil => rfl
  | cons reached others ih =>
    rw [List.flatMap_cons, List.findSome?_append, ih, List.findSome?_cons, run]
    cases List.findSome? next (second.results reached) <;> rfl

theorem run_alt (first second : Regex) (next : Cursor → Option Outcome) (cursor : Cursor) :
    run (.alt first second) next cursor = (run first next cursor).or (run second next cursor) := by
  rw [run, results, List.findSome?_append]
  rfl

theorem run_cat_cons (pattern : Regex) (rest : List Regex) (next : Cursor → Option Outcome) :
    run (cat (pattern :: rest)) next = run pattern (run (cat rest) next) := by
  cases rest with
  | nil => rw [cat, cat, run_empty]
  | cons other rest => rw [cat, run_seq]; simp

theorem run_cat_nil (next : Cursor → Option Outcome) : run (cat []) next = next := run_empty next

theorem run_single (accepts : CodeUnit → Bool) (next : Cursor → Option Outcome) (cursor : Cursor) :
    run (.single accepts) next cursor =
      if cursor.ahead.head?.any accepts then next (cursor.skip 1) else none := by
  obtain ⟨passed, ahead, captures⟩ := cursor
  cases ahead with
  | nil => rfl
  | cons unit ahead =>
    by_cases h : accepts unit <;> simp [run, results, h, Cursor.skip]

theorem run_single_cons (accepts : CodeUnit → Bool) (next : Cursor → Option Outcome)
    (passed : JsString) (unit : CodeUnit) (ahead : JsString) (captures : List (ℕ × JsString)) :
    run (.single accepts) next ⟨passed, unit :: ahead, captures⟩ =
      if accepts unit then next ⟨unit :: passed, ahead, captures⟩ else none := run_single ..

theorem run_literal (text : String) (next : Cursor → Option Outcome) (cursor : Cursor) :
    run (literal text) next cursor =
      if (js text).isPrefixOf cursor.ahead then next (cursor.skip (js text).length) else none := by
  rw [literal]
  generalize js text = units
  induction units generalizing cursor with
  | nil => simp [run_cat_nil]
  | cons unit units ih =>
    rw [List.map_cons, run_cat_cons, run_single]
    obtain ⟨passed, ahead, captures⟩ := cursor
    cases ahead with
    | nil => rfl
    | cons other ahead =>
      by_cases h : other = unit
      · rw [ih]
        simp [h, Cursor.skip]
      · simp [h, Ne.symm h]

theorem run_optional (pattern : Regex) (next : Cursor → Option Outcome) (cursor : Cursor) :
    run (optional pattern) next cursor = (run pattern next cursor).or (next cursor) := by
  rw [optional, run_alt, run_empty]

theorem run_group (index : ℕ) (inner : Regex) (next : Cursor → Option Outcome) (cursor : Cursor) :
    run (.group index inner) next cursor =
      run inner (fun reached ↦ next { reached with
        captures := (index, (reached.passed.take
          (reached.passed.length - cursor.passed.length)).reverse) :: reached.captures }) cursor := by
  rw [run, results, List.findSome?_map]
  rfl

/-- A greedy repetition takes all it can when the continuation accepts nothing before that. -/
theorem run_repeated_greedy (accepts : CodeUnit → Bool) {next : Cursor → Option Outcome}
    (h : ∀ cursor : Cursor, cursor.ahead.head?.any accepts → next cursor = none) (cursor : Cursor) :
    run (.repeated true accepts) next cursor =
      next (cursor.skip (cursor.ahead.takeWhile accepts).length) := by
  obtain ⟨passed, ahead, captures⟩ := cursor
  rw [run, results, List.findSome?_map]
  induction ahead generalizing passed with
  | nil => simp [passes, Cursor.skip]
  | cons unit ahead ih =>
    rw [passes]
    by_cases hunit : accepts unit
    · have hstop := h ⟨passed, unit :: ahead, captures⟩ (by simpa using hunit)
      simp only [hunit, if_true, List.findSome?_append, ih]
      simp [hstop, hunit, Cursor.skip]
    · simp [hunit, Cursor.skip]

/-- A greedy repetition takes all it can if the continuation accepts that. -/
theorem run_repeated_longest (accepts : CodeUnit → Bool) {next : Cursor → Option Outcome}
    {cursor : Cursor}
    (h : (next (cursor.skip (cursor.ahead.takeWhile accepts).length)).isSome) :
    run (.repeated true accepts) next cursor =
      next (cursor.skip (cursor.ahead.takeWhile accepts).length) := by
  obtain ⟨passed, ahead, captures⟩ := cursor
  have hlongest : ∀ ahead passed, ∃ others, passes true accepts passed ahead =
      ((ahead.take (ahead.takeWhile accepts).length).reverse ++ passed,
        ahead.drop (ahead.takeWhile accepts).length) :: others := by
    intro ahead
    induction ahead with
    | nil => exact fun passed ↦ ⟨[], rfl⟩
    | cons unit ahead ih =>
      intro passed
      rw [passes]
      by_cases hunit : accepts unit
      · obtain ⟨others, hothers⟩ := ih (unit :: passed)
        exact ⟨others ++ [(passed, unit :: ahead)], by simp [hunit, hothers]⟩
      · exact ⟨[], by simp [hunit]⟩
  obtain ⟨others, hothers⟩ := hlongest ahead passed
  obtain ⟨outcome, houtcome⟩ := Option.isSome_iff_exists.mp h
  rw [run, results, hothers, List.map_cons, List.findSome?_cons]
  simp only [Cursor.skip] at houtcome ⊢
  simp only [houtcome]

/-- A lazy repetition first tries to stop. -/
theorem run_repeated_lazy (accepts : CodeUnit → Bool) (next : Cursor → Option Outcome)
    (cursor : Cursor) :
    run (.repeated false accepts) next cursor =
      (next cursor).or (if cursor.ahead.head?.any accepts then
        run (.repeated false accepts) next (cursor.skip 1) else none) := by
  obtain ⟨passed, ahead, captures⟩ := cursor
  cases ahead with
  | nil => simp [run, results, passes]
  | cons unit ahead =>
    by_cases h : accepts unit
    · simp only [run, results, passes, h, Cursor.skip, if_true, Bool.false_eq_true, if_false,
        List.map_cons, List.findSome?_cons, List.head?_cons, Option.any_some]
      cases next ⟨passed, unit :: ahead, captures⟩ <;> rfl
    · simp [run, results, passes, h]

theorem mem_passes (greedy : Bool) (accepts : CodeUnit → Bool) (passed ahead : JsString)
    (reached : JsString × JsString) :
    reached ∈ passes greedy accepts passed ahead ↔
      ∃ count, (ahead.take count).all accepts ∧
        reached = ((ahead.take count).reverse ++ passed, ahead.drop count) := by
  induction ahead generalizing passed with
  | nil => simp [passes]
  | cons unit ahead ih =>
    have hsplit : (∃ count, ((unit :: ahead).take count).all accepts ∧
          reached = (((unit :: ahead).take count).reverse ++ passed, (unit :: ahead).drop count)) ↔
        reached = (passed, unit :: ahead) ∨ accepts unit ∧ ∃ count,
          (ahead.take count).all accepts ∧
            reached = ((ahead.take count).reverse ++ unit :: passed, ahead.drop count) := by
      constructor
      · rintro ⟨count, hall, hreached⟩
        cases count with
        | zero => exact Or.inl hreached
        | succ count =>
          simp only [List.take_succ_cons, List.all_cons, Bool.and_eq_true] at hall
          exact Or.inr ⟨hall.1, count, hall.2, by simpa using hreached⟩
      · rintro (hreached | ⟨hunit, count, hall, hreached⟩)
        · exact ⟨0, rfl, hreached⟩
        · exact ⟨count + 1, by simpa [hunit] using hall, by simpa using hreached⟩
    rw [passes, hsplit]
    by_cases hunit : accepts unit
    · cases greedy <;> simp [hunit, ih, or_comm]
    · simp [hunit]

theorem run_repeated_eq_some {greedy : Bool} {accepts : CodeUnit → Bool}
    {next : Cursor → Option Outcome} {cursor : Cursor} {outcome : Outcome}
    (h : run (.repeated greedy accepts) next cursor = some outcome) :
    ∃ count, (cursor.ahead.take count).all accepts ∧ next (cursor.skip count) = some outcome := by
  rw [run, results, List.findSome?_map] at h
  obtain ⟨reached, hreached, hnext⟩ := List.exists_of_findSome?_eq_some h
  obtain ⟨count, hall, rfl⟩ := (mem_passes ..).mp hreached
  exact ⟨count, hall, hnext⟩

theorem run_repeated_isSome {greedy : Bool} {accepts : CodeUnit → Bool}
    {next : Cursor → Option Outcome} {cursor : Cursor} {count : ℕ}
    (hall : (cursor.ahead.take count).all accepts) (h : (next (cursor.skip count)).isSome) :
    (run (.repeated greedy accepts) next cursor).isSome := by
  rw [run, results, List.findSome?_map, List.findSome?_isSome_iff]
  exact ⟨_, (mem_passes ..).mpr ⟨count, hall, rfl⟩, h⟩

/-- A greedy repetition first tries to go on. -/
theorem run_repeated_eager (accepts : CodeUnit → Bool) (next : Cursor → Option Outcome)
    (cursor : Cursor) :
    run (.repeated true accepts) next cursor =
      (if cursor.ahead.head?.any accepts then run (.repeated true accepts) next (cursor.skip 1)
        else none).or (next cursor) := by
  obtain ⟨passed, ahead, captures⟩ := cursor
  cases ahead with
  | nil => simp [run, results, passes]
  | cons unit ahead =>
    by_cases h : accepts unit
    · simp [run, results, passes, h, Cursor.skip, List.findSome?_append]
    · simp [run, results, passes, h]

/-- A greedy repetition stops at the last place that the continuation accepts. -/
theorem run_repeated_last {accepts : CodeUnit → Bool} {next : Cursor → Option Outcome}
    {block rest passed : JsString} {captures : List (ℕ × JsString)}
    (hblock : ∀ unit ∈ block, accepts unit = true)
    (h : (next ⟨block.reverse ++ passed, rest, captures⟩).isSome)
    (hlater : ∀ first last, rest = first ++ last → first ≠ [] →
      (∀ unit ∈ first, accepts unit = true) →
        next ⟨first.reverse ++ (block.reverse ++ passed), last, captures⟩ = none) :
    run (.repeated true accepts) next ⟨passed, block ++ rest, captures⟩ =
      next ⟨block.reverse ++ passed, rest, captures⟩ := by
  induction block generalizing passed with
  | nil =>
    rw [List.nil_append, run_repeated_eager]
    split
    · rename_i hhead
      cases hon : run (.repeated true accepts) next (Cursor.skip 1 ⟨passed, rest, captures⟩) with
      | none => rfl
      | some outcome =>
        -- going on would have been accepted further behind
        obtain ⟨unit, rest, rfl⟩ := List.exists_cons_of_ne_nil (l := rest) (by rintro rfl; cases hhead)
        obtain ⟨count, hall, hnext⟩ := run_repeated_eq_some hon
        have hnone := hlater (unit :: rest.take count) (rest.drop count) (by simp)
          (List.cons_ne_nil _ _) (List.forall_mem_cons.mpr ⟨hhead, by simpa [Cursor.skip] using hall⟩)
        simp [Cursor.skip] at hnext hnone
        rw [hnone] at hnext
        cases hnext
    · rfl
  | cons unit block ih =>
    rw [List.reverse_cons, List.append_assoc, List.singleton_append] at h ⊢
    rw [List.cons_append, run_repeated_eager, if_pos (by simpa using hblock unit List.mem_cons_self)]
    have hrest := ih (fun other hother ↦ hblock other (List.mem_cons_of_mem unit hother)) h
      (by simpa using hlater)
    have hskip : Cursor.skip 1 ⟨passed, unit :: (block ++ rest), captures⟩ =
        ⟨unit :: passed, block ++ rest, captures⟩ := rfl
    rw [hskip, hrest]
    obtain ⟨outcome, houtcome⟩ := Option.isSome_iff_exists.mp h
    rw [houtcome]
    rfl

/-- A captured word is all taken, as nothing behind it goes on with its units. -/
theorem run_group_word (index : ℕ) {first accepts : CodeUnit → Bool}
    {next : Cursor → Option Outcome} {unit : CodeUnit} {units rest passed : JsString}
    {captures : List (ℕ × JsString)} (hunit : first unit = true)
    (hunits : ∀ other ∈ units, accepts other = true)
    (hrest : ∀ other ∈ rest.head?, accepts other = false)
    (hstop : ∀ cursor : Cursor, cursor.ahead.head?.any accepts → next cursor = none) :
    run (.group index (.seq (.single first) (.repeated true accepts))) next
        ⟨passed, unit :: units ++ rest, captures⟩ =
      next ⟨(unit :: units).reverse ++ passed, rest, (index, unit :: units) :: captures⟩ := by
  have htake : (units ++ rest).takeWhile accepts = units := by
    rw [List.takeWhile_append_of_pos hunits]
    cases rest with
    | nil => simp
    | cons other rest => simp [hrest other rfl]
  have hconsumed : ((units.reverse ++ unit :: passed).take
      (units.length + (passed.length + 1) - passed.length)).reverse = unit :: units := by
    have hlength : units.length + (passed.length + 1) - passed.length =
        (units.reverse ++ [unit]).length := by
      rw [List.length_append, List.length_reverse, List.length_singleton]
      omega
    rw [List.append_cons, hlength, List.take_left]
    simp
  rw [run_group, run_seq, List.cons_append, run_single_cons, if_pos hunit,
    run_repeated_greedy _ ?_]
  · simp [Cursor.skip, htake, hconsumed]
  · intro cursor hcursor
    exact hstop _ hcursor

/-- A greedy repetition takes a block if the text behind it does not go on with its units and the
continuation accepts it. -/
theorem run_repeated_block {accepts : CodeUnit → Bool} {next : Cursor → Option Outcome}
    {block rest passed : JsString} {captures : List (ℕ × JsString)}
    (hblock : ∀ unit ∈ block, accepts unit = true)
    (hrest : ∀ unit ∈ rest.head?, accepts unit = false)
    (h : (next ⟨block.reverse ++ passed, rest, captures⟩).isSome) :
    run (.repeated true accepts) next ⟨passed, block ++ rest, captures⟩ =
      next ⟨block.reverse ++ passed, rest, captures⟩ := by
  refine run_repeated_last hblock h fun first last hsplit hne hfirst ↦ ?_
  obtain ⟨unit, first, rfl⟩ := List.exists_cons_of_ne_nil hne
  have hunit := hrest unit (by rw [hsplit]; rfl)
  rw [hfirst unit List.mem_cons_self] at hunit
  cases hunit

/-! ## Anchors -/

theorem run_lineStart (next : Cursor → Option Outcome) (cursor : Cursor) :
    run (.lineStart false) next cursor = if cursor.passed = [] then next cursor else none := by
  obtain ⟨passed, ahead, captures⟩ := cursor
  cases passed <;> simp [run, results, atLineStart]

theorem run_lineEnd (next : Cursor → Option Outcome) (cursor : Cursor) :
    run (.lineEnd false) next cursor = if cursor.ahead = [] then next cursor else none := by
  obtain ⟨passed, ahead, captures⟩ := cursor
  cases ahead <;> simp [run, results, atLineEnd]

/-- A repetition in front of the end takes the rest of the text. -/
theorem run_repeated_lineEnd (accepts : CodeUnit → Bool) (next : Cursor → Option Outcome)
    (cursor : Cursor) :
    run (.repeated true accepts) (run (.lineEnd false) next) cursor =
      if cursor.ahead.all accepts then next (cursor.skip cursor.ahead.length) else none := by
  have hstop : ∀ cursor : Cursor, cursor.ahead.head?.any accepts →
      run (.lineEnd false) next cursor = none := by
    intro cursor hhead
    rw [run_lineEnd, if_neg]
    intro hnil
    simp [hnil] at hhead
  rw [run_repeated_greedy accepts hstop, run_lineEnd, Cursor.ahead_skip_takeWhile]
  by_cases hall : cursor.ahead.all accepts
  · rw [List.all_eq_true] at hall
    rw [if_pos (List.dropWhile_eq_nil_iff.mpr hall), if_pos (List.all_eq_true.mpr hall),
      List.takeWhile_eq_self_iff.mpr hall]
  · rw [if_neg hall, if_neg]
    rw [List.dropWhile_eq_nil_iff]
    rwa [List.all_eq_true] at hall

theorem run_repeated1_lineEnd (accepts : CodeUnit → Bool) (next : Cursor → Option Outcome)
    (cursor : Cursor) :
    run (repeated1 true accepts) (run (.lineEnd false) next) cursor =
      if !cursor.ahead.isEmpty && cursor.ahead.all accepts then
        next (cursor.skip cursor.ahead.length)
      else none := by
  rw [repeated1, run_seq, run_single, run_repeated_lineEnd, Cursor.skip_skip]
  obtain ⟨passed, ahead, captures⟩ := cursor
  cases ahead with
  | nil => rfl
  | cons unit ahead =>
    by_cases hunit : accepts unit <;> simp [hunit, Cursor.skip, Nat.add_comm 1]

/-- The end of the text does not look at what is captured. -/
theorem run_group_then_lineEnd (index : ℕ) (inner : Regex) (next : Cursor → Option Outcome)
    (cursor : Cursor) :
    run (.group index inner) (run (.lineEnd false) next) cursor =
      run inner (run (.lineEnd false) fun reached : Cursor ↦ next { reached with
        captures := (index, (reached.passed.take
          (reached.passed.length - cursor.passed.length)).reverse) :: reached.captures }) cursor := by
  rw [run_group]
  congr 1
  funext reached
  rw [run_lineEnd, run_lineEnd]

/-- A captured repetition in front of the end captures the rest of the text. -/
theorem run_group_lineEnd (index : ℕ) (accepts : CodeUnit → Bool)
    (next : Cursor → Option Outcome) (cursor : Cursor) :
    run (.group index (repeated1 true accepts)) (run (.lineEnd false) next) cursor =
      if !cursor.ahead.isEmpty && cursor.ahead.all accepts then
        next { cursor.skip cursor.ahead.length with
          captures := (index, cursor.ahead) :: cursor.captures }
      else none := by
  rw [run_group_then_lineEnd, run_repeated1_lineEnd]
  simp [Cursor.skip]

/-- A captured repetition of any length in front of the end captures the rest of the text. -/
theorem run_group_repeated_lineEnd (index : ℕ) (accepts : CodeUnit → Bool)
    (next : Cursor → Option Outcome) (cursor : Cursor) :
    run (.group index (.repeated true accepts)) (run (.lineEnd false) next) cursor =
      if cursor.ahead.all accepts then
        next { cursor.skip cursor.ahead.length with
          captures := (index, cursor.ahead) :: cursor.captures }
      else none := by
  rw [run_group_then_lineEnd, run_repeated_lineEnd]
  simp [Cursor.skip]

/-- A pattern anchored to the start of the text matches there or nowhere. -/
theorem exec_anchored (rest : List Regex) (text : JsString) :
    (cat (.lineStart false :: rest)).exec text =
      (cat (.lineStart false :: rest)).matchAt [] text := by
  have hlater : ∀ unit passed ahead,
      (cat (.lineStart false :: rest)).matchAt (unit :: passed) ahead = none := by
    intro unit passed ahead
    rw [← Option.map_eq_none_iff (f := id), map_matchAt, run_cat_cons, run_lineStart]
    exact if_neg (List.cons_ne_nil unit passed)
  have hfrom : ∀ ahead unit passed,
      (cat (.lineStart false :: rest)).execFrom (unit :: passed) ahead = none := by
    intro ahead
    induction ahead with
    | nil => exact fun unit passed ↦ hlater unit passed []
    | cons other ahead ih =>
      intro unit passed
      rw [execFrom, hlater]
      exact ih other (unit :: passed)
  rw [exec]
  cases text with
  | nil => rfl
  | cons unit ahead =>
    rw [execFrom]
    cases (cat (.lineStart false :: rest)).matchAt [] (unit :: ahead) with
    | none => exact hfrom ahead unit []
    | some found => rfl

end Regex

end Foundations

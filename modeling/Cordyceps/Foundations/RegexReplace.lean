import Cordyceps.Foundations.RegexRun

/-!
# Searching and replacing

A search passes what cannot start a match, and a global replacement goes through a text
block by block: a block that is a match is replaced, and a unit at which nothing
matches stays. What a replacement returns comes from the text and the replacements.
-/

namespace Foundations.Regex

variable {pattern : Regex} {accepts : CodeUnit → Bool} {passed ahead : JsString}

/-- All matches of the pattern start with a unit of this class. -/
def Starts (accepts : CodeUnit → Bool) (pattern : Regex) : Prop := ∀ passed ahead,
  ahead.head?.any accepts = false → pattern.matchAt passed ahead = none

theorem starts_cat (accepts : CodeUnit → Bool) (rest : List Regex) :
    Starts accepts (cat (.single accepts :: rest)) := by
  intro passed ahead hhead
  rw [← Option.map_eq_none_iff (f := id), map_matchAt, run_cat_cons, run_single, if_neg]
  rw [hhead]
  exact Bool.false_ne_true

theorem starts_single (accepts : CodeUnit → Bool) : Starts accepts (.single accepts) :=
  starts_cat accepts []

/-! ## Searching -/

/-- A search passes what cannot start a match. -/
theorem Starts.execFrom_append (h : Starts accepts pattern) {text : JsString}
    (htext : ∀ unit ∈ text, accepts unit = false) (passed rest : JsString) :
    pattern.execFrom passed (text ++ rest) = pattern.execFrom (text.reverse ++ passed) rest := by
  induction text generalizing passed with
  | nil => rfl
  | cons unit text ih =>
    rw [List.cons_append, execFrom, h passed _ (by simp [htext unit List.mem_cons_self]),
      List.reverse_cons, List.append_assoc]
    exact ih (fun other hother ↦ htext other (List.mem_cons_of_mem unit hother)) (unit :: passed)

theorem Starts.exec_eq_none (h : Starts accepts pattern) {text : JsString}
    (htext : ∀ unit ∈ text, accepts unit = false) : pattern.exec text = none := by
  have hexec := h.execFrom_append htext [] []
  rw [List.append_nil] at hexec
  rw [exec, hexec, execFrom, h _ _ rfl]

/-! ## Global replacement -/

section

variable (replacement : Match → JsString)

theorem replaceFrom_of_none {unit : CodeUnit}
    (h : pattern.matchAt passed (unit :: ahead) = none) :
    pattern.replaceFrom replacement 0 passed (unit :: ahead) =
      unit :: pattern.replaceFrom replacement 0 (unit :: passed) ahead := by
  rw [replaceFrom, h]

theorem replaceFrom_skip (block rest passed : JsString) :
    pattern.replaceFrom replacement block.length passed (block ++ rest) =
      pattern.replaceFrom replacement 0 (block.reverse ++ passed) rest := by
  induction block generalizing passed with
  | nil => rfl
  | cons unit block ih =>
    rw [List.length_cons, List.cons_append, replaceFrom, ih, List.reverse_cons, List.append_assoc]
    rfl

/-- A block that is a match. -/
theorem replaceFrom_of_some {block rest : JsString} {found : Match}
    (h : pattern.matchAt passed (block ++ rest) = some found) (hblock : found.matched = block)
    (hne : block ≠ []) : pattern.replaceFrom replacement 0 passed (block ++ rest) =
      replacement found ++ pattern.replaceFrom replacement 0 (block.reverse ++ passed) rest := by
  obtain ⟨unit, block, rfl⟩ := List.exists_cons_of_ne_nil hne
  rw [List.cons_append] at h
  rw [List.cons_append, replaceFrom, h]
  simp only [hblock, List.length_cons]
  rw [replaceFrom_skip, List.reverse_cons, List.append_assoc]
  rfl

theorem Starts.replaceFrom_nil (h : Starts accepts pattern) (skip : ℕ) (passed : JsString) :
    pattern.replaceFrom replacement skip passed [] = [] := by
  rw [replaceFrom, h _ _ rfl]
  rfl

/-- What cannot start a match stays. -/
theorem Starts.replaceFrom_append (h : Starts accepts pattern) {text : JsString}
    (htext : ∀ unit ∈ text, accepts unit = false) (passed rest : JsString) :
    pattern.replaceFrom replacement 0 passed (text ++ rest) =
      text ++ pattern.replaceFrom replacement 0 (text.reverse ++ passed) rest := by
  induction text generalizing passed with
  | nil => rfl
  | cons unit text ih =>
    rw [List.cons_append, replaceFrom_of_none _ (h passed _ (by simp [htext unit List.mem_cons_self])),
      ih (fun other hother ↦ htext other (List.mem_cons_of_mem unit hother)), List.reverse_cons,
      List.append_assoc]
    rfl

theorem Starts.replaceAll_eq_self (h : Starts accepts pattern) {text : JsString}
    (htext : ∀ unit ∈ text, accepts unit = false) : pattern.replaceAll replacement text = text := by
  have hreplace := h.replaceFrom_append replacement htext [] []
  rwa [List.append_nil, h.replaceFrom_nil, List.append_nil] at hreplace

theorem Starts.replaceAll_cons (h : Starts accepts pattern) {unit : CodeUnit}
    (hunit : accepts unit = false) (text : JsString) :
    ∃ rest, pattern.replaceAll replacement (unit :: text) = unit :: rest :=
  ⟨_, replaceFrom_of_none replacement (h [] _ (by simp [hunit]))⟩

/-- Nothing appears that was neither there nor put in. -/
theorem mem_replaceFrom {unit : CodeUnit} {skip : ℕ}
    (h : unit ∈ pattern.replaceFrom replacement skip passed ahead) :
    unit ∈ ahead ∨ ∃ found, unit ∈ replacement found := by
  induction ahead generalizing skip passed with
  | nil =>
    rw [replaceFrom] at h
    cases hmatch : pattern.matchAt passed [] with
    | none => simp [hmatch] at h
    | some found => exact Or.inr ⟨found, by simpa [hmatch] using h⟩
  | cons other ahead ih =>
    have hahead : ∀ {skip passed}, unit ∈ pattern.replaceFrom replacement skip passed ahead →
        unit ∈ other :: ahead ∨ ∃ found, unit ∈ replacement found :=
      fun hlater ↦ (ih hlater).imp_left (List.mem_cons_of_mem other)
    cases skip with
    | succ skip => exact hahead h
    | zero =>
      rw [replaceFrom] at h
      split at h
      · rcases List.mem_cons.mp h with rfl | hlater
        · exact Or.inl List.mem_cons_self
        · exact hahead hlater
      · rename_i found _
        split at h
        · rcases List.mem_append.mp h with hfound | hlater
          · exact Or.inr ⟨found, hfound⟩
          · rcases List.mem_cons.mp hlater with rfl | hlater
            · exact Or.inl List.mem_cons_self
            · exact hahead hlater
        · exact (List.mem_append.mp h).elim (fun hfound ↦ Or.inr ⟨found, hfound⟩) hahead

end

/-! ## What a replacement keeps -/

/-- A way to match leaves an end of the text. -/
theorem suffix_of_mem_results {cursor reached : Cursor} (h : reached ∈ pattern.results cursor) :
    reached.ahead <:+ cursor.ahead := by
  induction pattern generalizing cursor reached with
  | empty =>
    rw [results, List.mem_singleton] at h
    rw [h]
  | single accepts =>
    rw [results] at h
    split at h
    · cases h
    · rename_i unit ahead hahead
      split at h
      · rw [List.mem_singleton] at h
        rw [h, hahead]
        exact List.suffix_cons unit ahead
      · cases h
  | seq first second ihFirst ihSecond =>
    obtain ⟨middle, hmiddle, hreached⟩ := List.mem_flatMap.mp h
    exact (ihSecond hreached).trans (ihFirst hmiddle)
  | alt first second ihFirst ihSecond => exact (List.mem_append.mp h).elim ihFirst ihSecond
  | repeated greedy accepts =>
    obtain ⟨pair, hpair, rfl⟩ := List.mem_map.mp h
    obtain ⟨count, -, rfl⟩ := (mem_passes ..).mp hpair
    exact List.drop_suffix count cursor.ahead
  | group index inner ih =>
    obtain ⟨inside, hinside, rfl⟩ := List.mem_map.mp h
    have hkeep : inside.ahead <:+ cursor.ahead := ih hinside
    exact hkeep
  | lineStart multiline =>
    rw [results] at h
    split at h
    · rw [List.mem_singleton.mp h]
    · cases h
  | lineEnd multiline =>
    rw [results] at h
    split at h
    · rw [List.mem_singleton.mp h]
    · cases h
  | wordBoundary =>
    rw [results] at h
    split at h
    · rw [List.mem_singleton.mp h]
    · cases h

/-- A match lies between two parts of the text. -/
theorem subset_of_execFrom {found : Match} (h : pattern.execFrom passed ahead = some found) :
    found.before ⊆ passed ++ ahead ∧ found.after ⊆ ahead := by
  have hmatch : ∀ passed ahead, pattern.matchAt passed ahead = some found →
      found.before = passed.reverse ∧ found.after ⊆ ahead := by
    intro passed ahead hfound
    obtain ⟨reached, hreached, rfl⟩ := Option.map_eq_some_iff.mp hfound
    exact ⟨rfl, (suffix_of_mem_results (List.mem_of_head? hreached)).subset⟩
  induction ahead generalizing passed with
  | nil =>
    obtain ⟨hbefore, hafter⟩ := hmatch passed [] h
    exact ⟨fun unit hunit ↦ by simpa [hbefore] using hunit, hafter⟩
  | cons unit ahead ih =>
    rw [execFrom] at h
    cases hhere : pattern.matchAt passed (unit :: ahead) with
    | some first =>
      rw [hhere, Option.some.injEq] at h
      obtain ⟨hbefore, hafter⟩ := hmatch passed (unit :: ahead) (h ▸ hhere)
      exact ⟨fun other hother ↦ List.mem_append_left _ (by simpa [hbefore] using hother), hafter⟩
    | none =>
      rw [hhere] at h
      obtain ⟨hbefore, hafter⟩ := ih h
      exact ⟨fun other hother ↦ by simpa [or_left_comm] using hbefore hother,
        List.subset_cons_of_subset unit hafter⟩

theorem mem_replaceFirst {unit : CodeUnit} {replacement text : JsString}
    (h : unit ∈ pattern.replaceFirst replacement text) : unit ∈ text ∨ unit ∈ replacement := by
  unfold replaceFirst at h
  split at h
  · rename_i found hfound
    obtain ⟨hbefore, hafter⟩ := subset_of_execFrom hfound
    rw [List.mem_append, List.mem_append] at h
    rcases h with (hunit | hunit) | hunit
    · exact Or.inl (hbefore hunit)
    · exact Or.inr hunit
    · exact Or.inl (hafter hunit)
  · exact Or.inl h

/-- Removing single units. -/
theorem replaceAll_single (accepts : CodeUnit → Bool) (text : JsString) :
    (Regex.single accepts).replaceAll (fun _ ↦ []) text = text.filter (!accepts ·) := by
  have hfrom : ∀ ahead passed, (Regex.single accepts).replaceFrom (fun _ ↦ []) 0 passed ahead =
      ahead.filter (!accepts ·) := by
    intro ahead
    induction ahead with
    | nil => exact fun passed ↦ (starts_single accepts).replaceFrom_nil _ 0 passed
    | cons unit ahead ih =>
      intro passed
      cases hunit : accepts unit with
      | false =>
        rw [replaceFrom_of_none _ (starts_single accepts _ _ (by simp [hunit])), ih]
        simp [hunit]
      | true =>
        have hmatch : (Regex.single accepts).matchAt passed ([unit] ++ ahead) =
            some ⟨passed.reverse, [unit], ahead, []⟩ := by
          simp [matchAt, results, hunit]
        rw [← List.singleton_append, replaceFrom_of_some _ hmatch rfl (List.cons_ne_nil _ _), ih]
        simp [hunit]
  exact hfrom text []

/-! ## Texts made of blocks -/

/-- The pattern needs a second unit of a class. -/
theorem matchAt_second_none {first second : CodeUnit → Bool} {other : CodeUnit}
    (h : second other = false) (more : List Regex) (passed : JsString) (unit : CodeUnit)
    (rest : JsString) :
    (cat (.single first :: .single second :: more)).matchAt passed (unit :: other :: rest) = none := by
  rw [← Option.map_eq_none_iff (f := id), map_matchAt, run_cat_cons, run_cat_cons, run_single]
  split
  · rw [run_single, if_neg (by simp [Cursor.skip, h])]
  · rfl

/-- A block that is a match from end to end. -/
theorem matchAt_of_run {block rest passed : JsString} {captures : List (ℕ × JsString)}
    (h : pattern.run some ⟨passed, block ++ rest, []⟩ =
      some ⟨block.reverse ++ passed, rest, captures⟩) :
    pattern.matchAt passed (block ++ rest) = some ⟨passed.reverse, block, rest, captures⟩ := by
  have hhead : (pattern.results ⟨passed, block ++ rest, []⟩).head? =
      some ⟨block.reverse ++ passed, rest, captures⟩ := by
    rw [← h, run]
    cases pattern.results ⟨passed, block ++ rest, []⟩ <;> rfl
  rw [matchAt, hhead, Option.map_some]
  simp

/-- The replacement turns a block into `shown`, whatever is around it. -/
def Rewrites (pattern : Regex) (replacement : Match → JsString) (block shown : JsString) : Prop :=
  ∀ passed rest, pattern.replaceFrom replacement 0 passed (block ++ rest) =
    shown ++ pattern.replaceFrom replacement 0 (block.reverse ++ passed) rest

section

variable {replacement : Match → JsString} {block shown : JsString}

theorem Rewrites.append {block' shown' : JsString} (h : Rewrites pattern replacement block shown)
    (h' : Rewrites pattern replacement block' shown') :
    Rewrites pattern replacement (block ++ block') (shown ++ shown') := by
  intro passed rest
  rw [List.append_assoc, h, h', List.append_assoc, List.reverse_append, List.append_assoc]

/-- What cannot start a match. -/
theorem Starts.rewrites_self (h : Starts accepts pattern)
    (hblock : ∀ unit ∈ block, accepts unit = false) :
    Rewrites pattern replacement block block :=
  h.replaceFrom_append replacement hblock

/-- A unit at which nothing matches, and a rest that cannot start a match. -/
theorem Starts.rewrites_cons (h : Starts accepts pattern) {unit : CodeUnit}
    (hunit : ∀ passed rest, pattern.matchAt passed (unit :: (block ++ rest)) = none)
    (hblock : ∀ unit ∈ block, accepts unit = false) :
    Rewrites pattern replacement (unit :: block) (unit :: block) := by
  intro passed rest
  rw [List.cons_append, replaceFrom_of_none _ (hunit passed rest),
    h.replaceFrom_append replacement hblock, List.reverse_cons, List.append_assoc]
  rfl

/-- A match. -/
theorem rewrites_match (hne : block ≠ []) (h : ∀ passed rest, ∃ captures,
      pattern.run some ⟨passed, block ++ rest, []⟩ =
          some ⟨block.reverse ++ passed, rest, captures⟩ ∧
        ∀ before after, replacement ⟨before, block, after, captures⟩ = shown) :
    Rewrites pattern replacement block shown := by
  intro passed rest
  obtain ⟨captures, hrun, hshown⟩ := h passed rest
  rw [replaceFrom_of_some replacement (matchAt_of_run hrun) rfl hne, hshown]

/-- A text is replaced block by block. -/
theorem Starts.replaceAll_flatMap (h : Starts accepts pattern) {Block : Type*}
    {text shown : Block → JsString} {blocks : List Block}
    (hblocks : ∀ block ∈ blocks, Rewrites pattern replacement (text block) (shown block)) :
    pattern.replaceAll replacement (blocks.flatMap text) = blocks.flatMap shown := by
  have hfrom : ∀ passed, pattern.replaceFrom replacement 0 passed (blocks.flatMap text) =
      blocks.flatMap shown := by
    induction blocks with
    | nil => exact fun passed ↦ h.replaceFrom_nil replacement 0 passed
    | cons block rest ih =>
      intro passed
      rw [List.forall_mem_cons] at hblocks
      rw [List.flatMap_cons, List.flatMap_cons, hblocks.1, ih hblocks.2]
  exact hfrom []

end

end Foundations.Regex

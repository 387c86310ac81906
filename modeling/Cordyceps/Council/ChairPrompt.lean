import Cordyceps.Council.Coverage
import Cordyceps.Foundations.Decimal

/-!
# What the chair is told

`chairPrompt` of the council plugin puts the results of the reviewers into sections, and tags
each section with how the review was made. The tag is inferred from the chunk fields of a
result, which `runOneReviewer` only sets for one of several chunks, and only in part when the
reviewer threw. So a tag is right for a reviewer with tools, and otherwise exactly if there are
several chunks and the reviewer answered.
-/

namespace Cordyceps.Council

open Foundations Foundations.LineGroups Foundations.StepMachine Cordyceps.Agents

variable {Findings : Type*}

/-! ## The prompt -/

/-- `${value}`, where the value may be `undefined`. -/
def orUndefined (value : Option ℕ) : JsString := (value.map Json.decimal).getD (js "undefined")

def wholeFileTag : JsString := js " [whole-file, tool-driven]"

def chunkTag (index totalChunks : ℕ) (startLine endLine : JsString) : JsString :=
  js " [chunk " ++ (Json.decimal (index + 1) ++ (js "/" ++ (Json.decimal totalChunks ++
    (js ", lines " ++ (startLine ++ (js "–" ++ (endLine ++ js "]")))))))

def scopeTag (totalChunks : ℕ) (r : ReviewerResult Findings) : JsString :=
  match r.chunkIndex with
  | some index =>
    chunkTag index totalChunks (orUndefined r.chunkStartLine) (orUndefined r.chunkEndLine)
  | none => wholeFileTag

/-- What a section starts with, up to the tag. -/
def heading (r : ReviewerResult Findings) : JsString :=
  js "## Reviewer: " ++ r.name ++ js " (driver=" ++ r.driver ++ js ")"

section

variable (render : Findings → JsString)

/-- One of the `sections`; `render` is `JSON.stringify(findings, null, 2)`. -/
def reviewerSection (totalChunks : ℕ) (r : ReviewerResult Findings) : JsString :=
  heading r ++ (scopeTag totalChunks r ++
    if r.succeeded then js "\n```json\n" ++ (r.findings.map render).getD (js "[]") ++ js "\n```\n"
    else js "\n  ERROR: " ++ r.error.getD [] ++ js "\n")

def scopeNote (reviewers : List (ReviewerResult Findings)) (totalChunks : ℕ) : JsString :=
  let anyInlineChunks := reviewers.any fun r ↦ r.chunkIndex.isSome
  let anyToolDriven := reviewers.any fun r ↦ r.chunkIndex.isNone
  if anyInlineChunks && anyToolDriven then
    js "Reviewers worked in two modes: some saw the WHOLE file via their own tools " ++
    js "(tagged [whole-file, tool-driven]), others saw individual CHUNKS of the file inlined in " ++
    js "their prompt (tagged [chunk N/M, lines X-Y]). Tool-driven reviewers may surface " ++
    js "cross-file context; inline reviewers see less but are more systematic per chunk. " ++
    js "Dedupe across both; treat whole-file findings that a chunked reviewer also flagged as " ++
    js "extra-strong agreement."
  else if 1 < totalChunks then
    js "The file was split into " ++ Json.decimal totalChunks ++ js " chunks for review. Each " ++
    js "reviewer saw one chunk. When deduplicating, findings from different chunks are almost " ++
    js "never duplicates of each other — but watch for systemic patterns that appear across " ++
    js "multiple chunks (same kind of bug in multiple places = higher priority)."
  else if anyToolDriven then
    js "Reviewers saw the whole file via their own tools. Each worked independently."
  else js "They worked independently — none saw another's findings."

def chairPrompt (targetPath : JsString) (reviewers : List (ReviewerResult Findings))
    (totalChunks : ℕ) : JsString :=
  let sections := join newline (reviewers.map (reviewerSection render totalChunks))
  let validReviewers := reviewers.filter ReviewerResult.succeeded
  js "You are the chair of a code review council. " ++ Json.decimal validReviewers.length ++
  js " of " ++ Json.decimal reviewers.length ++
  js " reviewer passes completed their reviews. " ++ scopeNote reviewers totalChunks ++
  js "\n\nYour job:\n" ++
  js "  1. Deduplicate — findings that describe the same issue should be collapsed\n" ++
  js "  2. Categorize — for each unique issue, note which reviewers flagged it (unanimous / " ++
  js "majority / minority / unique)\n" ++
  js "  3. Prioritize — order by severity × agreement\n" ++
  js "  4. Recommend — one of: approve, request-changes, block-ship\n" ++
  js "  5. Flag the minority opinions — often where the real blind spots hide\n" ++
  js "  6. Include line references like [file:L<n>] where reviewers provided them\n\n" ++
  js "Output a markdown report. Start with a one-line recommendation at the top. Then the " ++
  js "deduplicated findings in priority order. Then a short \"points of disagreement\" section " ++
  js "if reviewers saw the same code differently.\n\n" ++
  js "File: " ++ targetPath ++ js "\n\nReviews:\n" ++ sections ++ js "\n\nWrite your verdict now:"

theorem chairPrompt_sections (targetPath : JsString) (reviewers : List (ReviewerResult Findings))
    (totalChunks : ℕ) : ∃ before after, chairPrompt render targetPath reviewers totalChunks =
      before ++ join newline (reviewers.map (reviewerSection render totalChunks)) ++ after :=
  ⟨_, _, rfl⟩

/-- The section of a reviewer tells how the review was made. -/
structure Tells (totalChunks : ℕ) (task : ReviewTask) (result : ReviewerResult Findings) :
    Prop where
  wholeFile : heading result ++ wholeFileTag <+: reviewerSection render totalChunks result ↔
    ∃ targetPath, task.prompt = .toolDriven targetPath
  chunk : heading result ++ js " [chunk " <+: reviewerSection render totalChunks result →
    ∃ chunk, task.chunk = some chunk ∧
      heading result ++ chunkTag chunk.index totalChunks (Json.decimal chunk.startLine)
        (Json.decimal chunk.endLine) <+: reviewerSection render totalChunks result

end

/-! ## One section -/

section

variable {render : Findings → JsString} {totalChunks : ℕ} {result : ReviewerResult Findings}

theorem heading_prefix_iff (tag : JsString) :
    heading result ++ tag <+: reviewerSection render totalChunks result ↔
      tag <+: scopeTag totalChunks result ++
        if result.succeeded then
          js "\n```json\n" ++ (result.findings.map render).getD (js "[]") ++ js "\n```\n"
        else js "\n  ERROR: " ++ result.error.getD [] ++ js "\n" :=
  List.prefix_append_right_inj _

/-- The two kinds of tags differ. -/
theorem wholeFileTag_not_chunk (rest : JsString) : ¬ js " [chunk " <+: wholeFileTag ++ rest := by
  intro h
  have hopen : js " [chunk " = 0x20 :: 0x5B :: 0x63 :: js "hunk " := rfl
  have hwhole : wholeFileTag = 0x20 :: 0x5B :: 0x77 :: js "hole-file, tool-driven]" := rfl
  simp [hopen, hwhole] at h

theorem chunkTag_not_wholeFile (index : ℕ) (startLine endLine rest : JsString) :
    ¬ wholeFileTag <+: chunkTag index totalChunks startLine endLine ++ rest := by
  intro h
  have hopen : js " [chunk " = 0x20 :: 0x5B :: 0x63 :: js "hunk " := rfl
  have hwhole : wholeFileTag = 0x20 :: 0x5B :: 0x77 :: js "hole-file, tool-driven]" := rfl
  simp [chunkTag, hopen, hwhole] at h

/-- A missing line is no number. -/
theorem chunkTag_undefined (index index' startLine : ℕ) (endLine endLine' rest : JsString) :
    ¬ chunkTag index totalChunks (Json.decimal startLine) endLine <+:
      chunkTag index' totalChunks (js "undefined") endLine' ++ rest := by
  rintro ⟨tail, h⟩
  have hslash : js "/" = [0x2F] := rfl
  have hundefined : js "undefined" = 0x75 :: js "ndefined" := rfl
  obtain ⟨digit, digits, hdecimal⟩ := List.exists_cons_of_ne_nil (Json.decimal_ne_nil startLine)
  have hdigit : digit.isDigit = true :=
    Json.isDigit_of_mem_decimal (hdecimal ▸ List.mem_cons_self)
  simp only [chunkTag, hslash, List.append_assoc, List.cons_append, List.nil_append] at h
  obtain ⟨-, hlines⟩ := Json.decimal_append_inj (by decide) (List.append_cancel_left h)
  have hstart := List.append_cancel_left (List.append_cancel_left hlines)
  rw [hdecimal, hundefined] at hstart
  rw [(List.cons.inj hstart).1] at hdigit
  exact absurd hdigit (by decide)

/-- A result without a chunk. -/
theorem tells_wholeFile {task : ReviewTask} (hindex : result.chunkIndex = none) :
    Tells render totalChunks task result ↔ ∃ targetPath, task.prompt = .toolDriven targetPath := by
  have htag : scopeTag totalChunks result = wholeFileTag := by rw [scopeTag, hindex]
  have hwhole : heading result ++ wholeFileTag <+: reviewerSection render totalChunks result := by
    rw [heading_prefix_iff, htag]
    exact List.prefix_append _ _
  constructor
  · exact fun htells ↦ htells.wholeFile.mp hwhole
  · refine fun hprompt ↦ ⟨iff_of_true hwhole hprompt, fun hchunk ↦ ?_⟩
    rw [heading_prefix_iff, htag] at hchunk
    exact absurd hchunk (wholeFileTag_not_chunk _)

/-- A result with a chunk and its lines. -/
theorem tells_chunk {task : ReviewTask} {chunk : Chunk} (hchunk : task.chunk = some chunk)
    (hprompt : ¬ ∃ targetPath, task.prompt = .toolDriven targetPath)
    (hindex : result.chunkIndex = some chunk.index)
    (hstart : result.chunkStartLine = some chunk.startLine)
    (hend : result.chunkEndLine = some chunk.endLine) : Tells render totalChunks task result := by
  have htag : scopeTag totalChunks result = chunkTag chunk.index totalChunks
      (Json.decimal chunk.startLine) (Json.decimal chunk.endLine) := by
    rw [scopeTag, hindex, hstart, hend]
    rfl
  refine ⟨iff_of_false (fun hwhole ↦ ?_) hprompt, fun _ ↦ ⟨chunk, hchunk, ?_⟩⟩
  · rw [heading_prefix_iff, htag] at hwhole
    exact chunkTag_not_wholeFile _ _ _ _ hwhole
  · rw [heading_prefix_iff, htag]
    exact List.prefix_append _ _

/-- A result with a chunk and without its lines. -/
theorem not_tells_undefined {task : ReviewTask} {index : ℕ}
    (hindex : result.chunkIndex = some index) (hstart : result.chunkStartLine = none) :
    ¬ Tells render totalChunks task result := by
  have htag : scopeTag totalChunks result =
      chunkTag index totalChunks (js "undefined") (orUndefined result.chunkEndLine) := by
    rw [scopeTag, hindex, hstart]
    rfl
  intro htells
  have hopen : heading result ++ js " [chunk " <+: reviewerSection render totalChunks result := by
    rw [heading_prefix_iff, htag, chunkTag, List.append_assoc]
    exact List.prefix_append _ _
  obtain ⟨chunk, -, hlines⟩ := htells.chunk hopen
  rw [heading_prefix_iff, htag] at hlines
  exact chunkTag_undefined _ _ _ _ _ _ hlines

/-- A section tells how the review was made exactly if the source was not in the prompt, or if it
was one of several chunks of it and the reviewer answered. -/
theorem tells_iff (parse : JsString → Option Findings) (reviewId : JsString) {task : ReviewTask}
    (htask : task.chunk = none ↔ ∃ targetPath, task.prompt = .toolDriven targetPath)
    (outcome : Outcome) :
    Tells render totalChunks task (reviewerResult parse reviewId task outcome) ↔
      ∀ chunk ∈ task.chunk, 1 < chunk.total ∧ ∃ text, outcome = .ok text := by
  cases hchunk : task.chunk with
  | none =>
    have hindex : (reviewerResult parse reviewId task outcome).chunkIndex = none := by
      cases outcome <;> simp [reviewerResult, ReviewTask.partOf, hchunk]
    exact (tells_wholeFile hindex).trans (iff_of_true (htask.mp hchunk) (by simp))
  | some chunk =>
    have hprompt : ¬ ∃ targetPath, task.prompt = .toolDriven targetPath := by
      rw [← htask, hchunk]
      simp
    have hpart : task.partOf = if 1 < chunk.total then some chunk else none := by
      simp [ReviewTask.partOf, hchunk, Option.filter_some]
    simp only [Option.mem_some_iff, forall_eq']
    by_cases hseveral : 1 < chunk.total
    · rw [if_pos hseveral] at hpart
      cases outcome with
      | ok text =>
        refine iff_of_true (tells_chunk hchunk hprompt ?_ ?_ ?_) ⟨hseveral, text, rfl⟩ <;>
          simp [reviewerResult, hpart]
      | error message =>
        have hindex : (reviewerResult parse reviewId task (.error message)).chunkIndex =
            some chunk.index := by
          simp [reviewerResult, hpart]
        refine iff_of_false (not_tells_undefined hindex rfl) ?_
        rintro ⟨-, text, htext⟩
        cases htext
    · rw [if_neg hseveral] at hpart
      have hindex : (reviewerResult parse reviewId task outcome).chunkIndex = none := by
        cases outcome <;> simp [reviewerResult, hpart]
      exact (tells_wholeFile hindex).trans (iff_of_false hprompt fun hboth ↦ hseveral hboth.1)

end

/-! ## Reviews -/

/-- The tasks that get the source in their prompt are those with a chunk. -/
theorem chunk_eq_none_iff {params : CouncilParams} {target : Target} {task : ReviewTask}
    (h : task ∈ reviewTasks params target) :
    task.chunk = none ↔ ∃ targetPath, task.prompt = .toolDriven targetPath := by
  rcases List.mem_append.mp h with htool | hinline
  · obtain ⟨⟨spec, index⟩, -, rfl⟩ := List.mem_map.mp htool
    exact iff_of_true rfl ⟨_, rfl⟩
  · obtain ⟨chunk, -, hinline⟩ := List.mem_flatMap.mp hinline
    obtain ⟨⟨spec, index⟩, -, rfl⟩ := List.mem_map.mp hinline
    refine iff_of_false (by simp) ?_
    unfold inlinePrompt
    rintro ⟨targetPath, hprompt⟩
    cases hmode : target.mode <;> simp [hmode] at hprompt

theorem forall₂_zipWith_iff {Task Answer Result : Type*} {relation : Task → Result → Prop}
    {condition : Task → Answer → Prop} {result : Task → Answer → Result} {tasks : List Task}
    (h : ∀ task ∈ tasks, ∀ answer, relation task (result task answer) ↔ condition task answer)
    {answers : List Answer} (hlength : tasks.length = answers.length) :
    List.Forall₂ relation tasks (tasks.zipWith result answers) ↔
      List.Forall₂ condition tasks answers := by
  induction tasks generalizing answers with
  | nil =>
    cases answers with
    | nil => exact iff_of_true .nil .nil
    | cons answer rest => cases hlength
  | cons task others ih =>
    cases answers with
    | nil => cases hlength
    | cons answer rest =>
      rw [List.forall_mem_cons] at h
      rw [List.zipWith_cons_cons, List.forall₂_cons, List.forall₂_cons, h.1 answer,
        ih h.2 (by simpa using hlength)]

namespace ReviewCall

variable {call : ReviewCall Findings} {review : Review Findings}

/-- **The chair is told how each review was made**, in the section of the reviewer, if and only if
every reviewer that got the source in its prompt got one of several chunks, and answered. -/
theorem chair_told_iff {manager : AgentManager} (hmanager : Reachable manager)
    {schedule : List ReviewEvent} (hrun : run call.step (call.start manager) schedule = some review)
    {prompt : ChairPrompt Findings} {chair : AgentUse}
    (hphase : review.phase = .chairing prompt chair) (render : Findings → JsString) :
    (∃ before after,
        chairPrompt render prompt.targetPath prompt.reviewers prompt.totalChunks = before ++
          join newline (prompt.reviewers.map (reviewerSection render prompt.totalChunks)) ++ after) ∧
      (List.Forall₂ (Tells render prompt.totalChunks) call.tasks prompt.reviewers ↔
        List.Forall₂ (fun task use ↦ ∀ chunk ∈ task.chunk,
          1 < chunk.total ∧ ∃ text, use.outcome = some (.ok text)) call.tasks review.reviewers) := by
  refine ⟨chairPrompt_sections render _ _ _, ?_⟩
  have h : call.Sound review :=
    (throughout_of_invariant (fun _ _ _ hsound _ hstep ↦ hsound.step hstep)
      (call.sound_start hmanager.labelled) (stepsMeet_true _ schedule)).last hrun
  have hreviews : prompt.reviewers ∈ review.phase.reviews := by
    rw [hphase]
    rfl
  obtain ⟨outcomes, houtcomes, hresults⟩ :=
    Option.map_eq_some_iff.mp (h.gathered prompt.reviewers hreviews)
  have hdone := map_outcome houtcomes
  have hlength : call.tasks.length = outcomes.length := by
    have hcount := congrArg List.length hdone
    have hnames := congrArg List.length h.names
    simp only [List.length_map] at hcount hnames
    rw [← hnames, hcount]
  have htasks : ∀ task ∈ call.tasks, ∀ outcome,
      Tells render prompt.totalChunks task (reviewerResult call.parse call.reviewId task outcome) ↔
        ∀ chunk ∈ task.chunk, 1 < chunk.total ∧ ∃ text, outcome = .ok text :=
    fun task htask ↦ tells_iff call.parse call.reviewId (chunk_eq_none_iff htask)
  rw [← hresults, forall₂_zipWith_iff htasks hlength]
  have huses : List.Forall₂ (fun task (outcome : Option Outcome) ↦ ∀ chunk ∈ task.chunk,
        1 < chunk.total ∧ ∃ text, outcome = some (.ok text)) call.tasks
          (review.reviewers.map AgentUse.outcome) ↔ _ := List.forall₂_map_right_iff
  rw [← huses, hdone, List.forall₂_map_right_iff]
  simp only [Option.some.injEq]

/-- A reviewer that reads the file with its own tools, and one that gets it in two chunks. -/
theorem chair_told_panel :
    ∃ review prompt chair, Reachable panelManager ∧
      run (ofPanel longSource).step ((ofPanel longSource).start panelManager)
        (panelTurns ++ [.gathered]) = some review ∧
      review.phase = .chairing prompt chair ∧
      List.Forall₂ (Tells id prompt.totalChunks) (ofPanel longSource).tasks prompt.reviewers := by
  obtain ⟨review, prompt, chair, -, -, -, hrun, hphase, houtcomes, -⟩ := run_ofPanel chunks_longSource
  refine ⟨review, prompt, chair, reachable_panelManager, hrun, hphase,
    (chair_told_iff reachable_panelManager hrun hphase id).2.mpr ?_⟩
  have hanswered : List.Forall₂ (fun task (outcome : Option Outcome) ↦ ∀ chunk ∈ task.chunk,
      1 < chunk.total ∧ ∃ text, outcome = some (.ok text)) (ofPanel longSource).tasks
        (review.reviewers.map AgentUse.outcome) := by
    have hpart : ∀ chunk : Chunk, chunk.total = 2 → ∀ other ∈ some chunk, 1 < other.total ∧
        ∃ text, some (.ok (some (js "[]"))) = some (.ok text : Outcome) := by
      intro chunk htotal other hother
      rw [← Option.some.inj hother, htotal]
      exact ⟨Nat.one_lt_two, _, rfl⟩
    rw [houtcomes, tasks_ofPanel chunks_longSource]
    exact .cons (fun chunk hchunk ↦ nomatch hchunk) (.cons (hpart _ rfl) (.cons (hpart _ rfl) .nil))
  exact List.forall₂_map_right_iff.mp hanswered

/-- A manager with one driver and the runtime it needs. -/
def codexManager : AgentManager :=
  (AgentManager.create
    ⟨JsMap.empty.set (js "codex") ⟨js "codex", [], [.exec]⟩, .empty, .empty⟩
    (js "/")).registerRuntime .exec

/-- The reviewer is spawned, answers, is killed, and is removed. -/
def reviewerTurns : List ReviewEvent :=
  [.manager (.probed 0 (some ⟨true, [], [.exec]⟩) ⟨[], 0⟩), .manager (.built 0 false),
    .reviewer 0 (.resumed false), .reviewer 0 (.answered (.ok (some (js "[]")))),
    .manager (.exit 0), .reviewer 0 (.killed false), .gathered]

/-- A review of a file by one reviewer. -/
def ofFile (forceInline : Bool) : ReviewCall JsString where
  params := ⟨some [⟨js "codex", none⟩], none, false, forceInline⟩
  target := ⟨js "x", js "x.ts", .file⟩
  reviewId := js "r"
  parse := some
  describe _ := js "no agent"

/-- A reviewer with the file in its prompt, which is one chunk. -/
theorem chair_not_told_inline :
    ∃ review prompt chair, Reachable codexManager ∧
      run (ofFile true).step ((ofFile true).start codexManager) reviewerTurns = some review ∧
      review.phase = .chairing prompt chair ∧
      ¬ List.Forall₂ (Tells id prompt.totalChunks) (ofFile true).tasks prompt.reviewers := by
  have hmanager : Reachable codexManager := ⟨_, _, [.registerRuntime .exec], rfl⟩
  have hrun : run (ofFile true).step ((ofFile true).start codexManager) reviewerTurns =
      some _ := rfl
  refine ⟨_, _, _, hmanager, hrun, rfl, fun htells ↦ ?_⟩
  have hinline : (ofFile true).tasks = [⟨⟨js "codex", none⟩, 0,
      .inline (js "x.ts") ⟨js "x", 1, 1, 0, 1⟩, some ⟨js "x", 1, 1, 0, 1⟩⟩] := rfl
  rw [hinline] at htells
  cases htells with
  | cons hfirst _ =>
    obtain ⟨targetPath, hprompt⟩ := (tells_wholeFile rfl).mp hfirst
    cases hprompt

end ReviewCall

end Cordyceps.Council

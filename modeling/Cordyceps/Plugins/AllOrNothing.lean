import Cordyceps.Plugins.Lifecycle

/-!
# When a failed load leaves nothing behind

Loading only adds: methods and subscriptions come, and one-shot listeners of
`plugin.ready` go. Nothing is taken back on an error. So a load that fails leaves the
host as it was exactly if it has had no effect before, and the same holds for a
series of loads.
-/

namespace Cordyceps.Plugins

open Foundations Cordyceps.Core

variable {Handler Callback Disposer Value : Type*}

/-! ## Hosts that agree -/

/-- The same method table, and the same live subscriptions to every event. -/
structure Host.Same (first second : Host Handler Callback Value) : Prop where
  methods : first.methods = second.methods
  live : ∀ event, first.bus.current event = second.bus.current event

/-- Callbacks may have come and one-shot listeners may have gone. -/
structure Drifted (before after : List (Listener Callback)) : Prop where
  plain : before.countP (!Listener.oneShot ·) ≤ after.countP (!Listener.oneShot ·)
  oneShot : after.countP Listener.oneShot ≤ before.countP Listener.oneShot
  still : after.countP (!Listener.oneShot ·) ≤ before.countP (!Listener.oneShot ·) →
    before.countP Listener.oneShot ≤ after.countP Listener.oneShot → after = before

theorem Drifted.refl (live : List (Listener Callback)) : Drifted live live :=
  ⟨le_rfl, le_rfl, fun _ _ ↦ rfl⟩

theorem Drifted.trans {first second third : List (Listener Callback)} (h : Drifted first second)
    (h' : Drifted second third) : Drifted first third := by
  refine ⟨h.plain.trans h'.plain, h'.oneShot.trans h.oneShot, fun hplain hshot ↦ ?_⟩
  rw [h'.still (hplain.trans h.plain) (h.oneShot.trans hshot),
    h.still (h'.plain.trans hplain) (hshot.trans h'.oneShot)]

/-- What loading does to a host. -/
structure Host.Drift (before after : Host Handler Callback Value) : Prop where
  methods : before.methods.entries <+: after.methods.entries
  live : ∀ event, Drifted (before.bus.current event) (after.bus.current event)

namespace Host

variable {first second third : Host Handler Callback Value}

theorem Same.refl (host : Host Handler Callback Value) : host.Same host := ⟨rfl, fun _ ↦ rfl⟩

theorem Same.symm (h : first.Same second) : second.Same first :=
  ⟨h.methods.symm, fun event ↦ (h.live event).symm⟩

theorem Same.trans (h : first.Same second) (h' : second.Same third) : first.Same third :=
  ⟨h.methods.trans h'.methods, fun event ↦ (h.live event).trans (h'.live event)⟩

theorem Drift.refl (host : Host Handler Callback Value) : host.Drift host :=
  ⟨List.prefix_rfl, fun _ ↦ .refl _⟩

theorem Drift.trans (h : first.Drift second) (h' : second.Drift third) : first.Drift third :=
  ⟨h.methods.trans h'.methods, fun event ↦ (h.live event).trans (h'.live event)⟩

/-- There is no way back: what ends where it began has not moved. -/
theorem Drift.same_iff (h : first.Drift second) (h' : second.Drift third) :
    third.Same first ↔ second.Same first ∧ third.Same second := by
  constructor
  · intro hsame
    have hmethods : second.methods = first.methods := by
      apply JsMap.ext_entries
      have hback : second.methods.entries <+: first.methods.entries :=
        hsame.methods ▸ h'.methods
      exact (h.methods.eq_of_length_le hback.length_le).symm
    have hlive : ∀ event, second.bus.current event = first.bus.current event := by
      intro event
      apply (h.live event).still
      · exact hsame.live event ▸ (h'.live event).plain
      · exact hsame.live event ▸ (h'.live event).oneShot
    have hsecond : second.Same first := ⟨hmethods, hlive⟩
    exact ⟨hsecond, hsame.trans hsecond.symm⟩
  · rintro ⟨hsecond, hthird⟩
    exact hthird.trans hsecond

end Host

namespace Host

variable (host : Host Handler Callback Value)

/-- The methods that are registered. -/
def names : List JsString := host.methods.entries.map Prod.fst

theorem has_iff (name : JsString) : host.methods.has name = true ↔ name ∈ host.names :=
  JsMap.has_iff

/-- The host with further methods. -/
def withMethods (entries : List (JsString × Handler)) : Host Handler Callback Value :=
  { host with methods := host.methods.setAll entries }

variable {host}

theorem Same.names {other : Host Handler Callback Value} (h : host.Same other) :
    host.names = other.names := by
  rw [Host.names, Host.names, h.methods]

/-- The names are distinct, and the dispatcher has none of them yet. -/
structure Fresh (host : Host Handler Callback Value) (entries : List (JsString × Handler)) :
    Prop where
  nodup : (entries.map Prod.fst).Nodup
  new : ∀ entry ∈ entries, entry.1 ∉ host.names

theorem Fresh.entries {entries : List (JsString × Handler)} (h : host.Fresh entries) :
    (host.withMethods entries).methods.entries = host.methods.entries ++ entries :=
  JsMap.entries_setAll_of_fresh h.nodup h.new

theorem Fresh.names {entries : List (JsString × Handler)} (h : host.Fresh entries) :
    (host.withMethods entries).names = host.names ++ entries.map Prod.fst := by
  rw [Host.names, h.entries, List.map_append, Host.names]

theorem Fresh.drift {entries : List (JsString × Handler)} (h : host.Fresh entries) :
    host.Drift (host.withMethods entries) :=
  ⟨h.entries ▸ List.prefix_append _ _, fun _ ↦ .refl _⟩

theorem Fresh.same_iff {entries : List (JsString × Handler)} (h : host.Fresh entries) :
    (host.withMethods entries).Same host ↔ entries = [] := by
  constructor
  · intro hsame
    have hlength := h.entries ▸ congrArg JsMap.entries hsame.methods
    simpa using hlength
  · rintro rfl
    exact .refl host

end Host

/-! ## Effects on the bus -/

section Effects

theorem drifted_addTo [DecidableEq Callback] (live : List (Listener Callback)) (cb : Callback) :
    Drifted live (ServiceBus.addTo (.callback cb) live) := by
  unfold ServiceBus.addTo
  split
  · exact .refl live
  · have hplain : (live ++ [Listener.callback cb]).countP (!Listener.oneShot ·) =
        live.countP (!Listener.oneShot ·) + 1 := List.countP_append
    have hshot : (live ++ [Listener.callback cb]).countP Listener.oneShot =
        live.countP Listener.oneShot := List.countP_append
    refine ⟨by omega, hshot.le, fun hback ↦ ?_⟩
    omega

theorem drifted_filter (live : List (Listener Callback)) :
    Drifted live (live.filter fun listener ↦ !listener.oneShot) := by
  refine ⟨?_, ?_, fun _ hshot ↦ ?_⟩
  · simp [List.countP_filter]
  · simp [List.countP_filter]
  · have hnone : live.countP Listener.oneShot = 0 := by
      simpa [List.countP_filter] using hshot
    rw [List.countP_eq_zero] at hnone
    exact List.filter_eq_self.mpr fun listener hmem ↦ by simpa using hnone listener hmem

/-- A subscription is absorbed when its listener is live already. -/
def ContextCall.Absorbed (host : Host Handler Callback Value) : ContextCall Callback Disposer → Prop
  | .subscribe event cb => .callback cb ∈ host.bus.current event
  | .onDestroy _ => True

theorem Host.Same.absorbed_iff {host other : Host Handler Callback Value} (h : host.Same other)
    (call : ContextCall Callback Disposer) : call.Absorbed host ↔ call.Absorbed other := by
  cases call with
  | subscribe event cb => simp only [ContextCall.Absorbed, h.live]
  | onDestroy fn => rfl

variable [DecidableEq Callback] {host : Host Handler Callback Value}

theorem Host.methods_perform (call : ContextCall Callback Disposer) :
    (host.perform call).1.methods = host.methods := by
  cases call <;> rfl

theorem Host.drift_perform (call : ContextCall Callback Disposer) :
    host.Drift (host.perform call).1 := by
  cases call with
  | onDestroy fn => exact .refl host
  | subscribe event cb =>
    refine ⟨List.prefix_rfl, fun name ↦ ?_⟩
    have hcurrent := host.wired.addressed.current_on event name (.callback cb)
    change Drifted _ ((host.bus.on event (.callback cb)).current name)
    rw [hcurrent]
    split
    · rename_i hname
      exact hname ▸ drifted_addTo _ cb
    · exact .refl _

theorem Host.same_perform_iff (call : ContextCall Callback Disposer) :
    (host.perform call).1.Same host ↔ call.Absorbed host := by
  cases call with
  | onDestroy fn => exact ⟨fun _ ↦ trivial, fun _ ↦ .refl host⟩
  | subscribe event cb =>
    have hcurrent := fun name ↦ host.wired.addressed.current_on event name (.callback cb)
    constructor
    · intro hsame
      have hevent := (hcurrent event).symm.trans (hsame.live event)
      rw [if_pos rfl] at hevent
      change Listener.callback cb ∈ host.bus.current event
      rw [← hevent]
      exact ServiceBus.Wired.mem_addTo.mpr (.inr rfl)
    · intro hlive
      refine ⟨rfl, fun name ↦ (hcurrent name).trans ?_⟩
      split
      · rename_i hname
        rw [hname]
        exact if_pos hlive
      · rfl

theorem methods_performAll (calls : List (ContextCall Callback Disposer)) :
    (performAll calls host).1.methods = host.methods := by
  induction calls generalizing host with
  | nil => rfl
  | cons call rest ih => exact ih.trans (Host.methods_perform call)

theorem drift_performAll (calls : List (ContextCall Callback Disposer)) :
    host.Drift (performAll calls host).1 := by
  induction calls generalizing host with
  | nil => exact .refl host
  | cons call rest ih => exact (Host.drift_perform call).trans ih

/-- The calls of an `init` change nothing exactly if all its subscriptions are live already. -/
theorem same_performAll_iff (calls : List (ContextCall Callback Disposer)) :
    (performAll calls host).1.Same host ↔ ∀ call ∈ calls, call.Absorbed host := by
  induction calls generalizing host with
  | nil => exact ⟨fun _ ↦ by simp, fun _ ↦ .refl host⟩
  | cons call rest ih =>
    have hdrift : host.Drift (host.perform call).1 := Host.drift_perform call
    change (performAll rest (host.perform call).1).1.Same host ↔ _
    rw [hdrift.same_iff (drift_performAll rest), Host.same_perform_iff, ih, List.forall_mem_cons]
    apply and_congr_right
    intro hcall
    have hsame := (Host.same_perform_iff call).mpr hcall
    exact forall₂_congr fun other _ ↦ hsame.absorbed_iff other

theorem Host.drift_emit (event : JsString) : host.Drift (host.emit event) := by
  refine ⟨List.prefix_rfl, fun name ↦ ?_⟩
  change Drifted _ ((host.bus.emit event).1.current name)
  rw [host.wired.current_emit]
  split
  · rename_i hname
    exact hname ▸ drifted_filter _
  · exact .refl _

theorem Host.same_emit_iff (event : JsString) :
    (host.emit event).Same host ↔ ∀ listener ∈ host.bus.current event, !listener.oneShot := by
  have hcurrent := fun name ↦ host.wired.current_emit event name
  constructor
  · intro hsame
    have hevent := (hcurrent event).symm.trans (hsame.live event)
    rw [if_pos rfl] at hevent
    exact List.filter_eq_self.mp hevent
  · intro hnone
    refine ⟨rfl, fun name ↦ (hcurrent name).trans ?_⟩
    split
    · rename_i hname
      rw [hname]
      exact List.filter_eq_self.mpr hnone
    · rfl

end Effects

/-! ## Loading one plugin -/

section Register

variable {host : Host Handler Callback Value}

/-- Names that are free are all registered, before the loop goes on to the others. -/
theorem registerMethods_append {first : List (JsString × Handler)} (h : host.Fresh first)
    (rest : List (JsString × Handler)) : registerMethods (first ++ rest) host =
      (registerMethods rest (host.withMethods first)).map id fun names ↦
        names.map (first.map Prod.fst ++ ·) := by
  induction first generalizing host with
  | nil =>
    change registerMethods rest host = (registerMethods rest host).map id _
    rcases registerMethods rest host with ⟨after, error | names⟩
    · rfl
    · rfl
  | cons entry first ih =>
    obtain ⟨name, handler⟩ := entry
    obtain ⟨hnew, hnodup⟩ := List.nodup_cons.mp h.nodup
    obtain ⟨hname, hothers⟩ := List.forall_mem_cons.mp h.new
    have hhead : host.Fresh [(name, handler)] := ⟨List.nodup_singleton name, by simpa using hname⟩
    have htail : (host.withMethods [(name, handler)]).Fresh first := by
      refine ⟨hnodup, fun other hother ↦ ?_⟩
      rw [hhead.names, List.mem_append, not_or]
      refine ⟨hothers other hother, ?_⟩
      rw [List.map_singleton, List.mem_singleton]
      exact fun heq ↦ hnew (heq ▸ List.mem_map_of_mem hother)
    have hregister : host.register name handler = .ok (host.withMethods [(name, handler)]) := by
      rw [Host.register, if_neg (by rwa [host.has_iff])]
      rfl
    rw [List.cons_append, registerMethods, hregister]
    change (registerMethods (first ++ rest) (host.withMethods [(name, handler)])).map id _ = _
    rw [ih htail]
    change _ = (registerMethods rest ((host.withMethods [(name, handler)]).withMethods first)).map _ _
    rcases registerMethods rest ((host.withMethods [(name, handler)]).withMethods first) with
      ⟨after, error | names⟩
    · rfl
    · rfl

theorem registerMethods_of_fresh {entries : List (JsString × Handler)} (h : host.Fresh entries) :
    registerMethods entries host = (host.withMethods entries, .ok (entries.map Prod.fst)) := by
  have happend := registerMethods_append h []
  rw [List.append_nil] at happend
  rw [happend, registerMethods, Prod.map_apply, id, Except.map, List.append_nil]

/-- The loop stops at the first name that is taken, and what it has registered stays. -/
theorem registerMethods_of_taken {entries : List (JsString × Handler)}
    (hnodup : (entries.map Prod.fst).Nodup) (h : ∃ entry ∈ entries, entry.1 ∈ host.names) :
    ∃ first entry rest, entries = first ++ entry :: rest ∧ host.Fresh first ∧
      entry.1 ∈ host.names ∧
      registerMethods entries host = (host.withMethods first, .error (.taken entry.1)) := by
  obtain ⟨first, entry, rest, rfl, hfirst, htaken⟩ :
      ∃ first entry rest, entries = first ++ entry :: rest ∧
        (∀ other ∈ first, other.1 ∉ host.names) ∧ entry.1 ∈ host.names := by
    induction entries with
    | nil => simp at h
    | cons head rest ih =>
      by_cases hhead : head.1 ∈ host.names
      · exact ⟨[], head, rest, rfl, by simp, hhead⟩
      · obtain ⟨entry, hentry, hname⟩ := h
        have hrest : entry ∈ rest := (List.mem_cons.mp hentry).resolve_left fun heq ↦
          hhead (heq ▸ hname)
        obtain ⟨first, entry, rest, rfl, hfirst, htaken⟩ :=
          ih (List.nodup_cons.mp hnodup).2 ⟨entry, hrest, hname⟩
        exact ⟨head :: first, entry, rest, rfl, List.forall_mem_cons.mpr ⟨hhead, hfirst⟩, htaken⟩
  have hfresh : host.Fresh first := by
    refine ⟨?_, hfirst⟩
    rw [List.map_append, List.nodup_append] at hnodup
    exact hnodup.1
  have hstop : (host.withMethods first).register entry.1 entry.2 = .error (.taken entry.1) := by
    rw [Host.register, if_pos]
    rw [Host.has_iff, hfresh.names]
    exact List.mem_append_left _ htaken
  refine ⟨first, entry, rest, rfl, hfresh, htaken, ?_⟩
  rw [registerMethods_append hfresh, registerMethods, hstop]
  rfl

end Register

namespace PluginModule

variable (plugin : PluginModule Handler Callback Disposer) (opts : LoaderOpts)

def names : List JsString := plugin.methods.entries.map Prod.fst

/-- The plugin is not loaded: one of its names is taken, or its `init` throws. -/
def Fails (taken : List JsString) : Prop :=
  (plugin.config opts).enabled = true ∧
    ((∃ name ∈ plugin.names, name ∈ taken) ∨ (plugin.run opts).thrown.isSome = true)

/-- If the plugin is not loaded, the error comes before the first effect: the first name is taken,
or `init` throws for a plugin without methods whose subscriptions are all live already. -/
def FailsClean (host : Host Handler Callback Value) : Prop :=
  plugin.Fails opts host.names →
    ((∃ name ∈ plugin.names, name ∈ host.names) → ∃ name ∈ plugin.names.head?, name ∈ host.names) ∧
    ((∀ name ∈ plugin.names, name ∉ host.names) →
      plugin.names = [] ∧ ∀ call ∈ (plugin.run opts).calls, call.Absorbed host)

/-- Loading the plugin would have no effect: it is disabled, or it has no methods, its
subscriptions are all live already and nobody waits for `plugin.ready` once. -/
def Inert (host : Host Handler Callback Value) : Prop :=
  (plugin.config opts).enabled = true →
    plugin.names = [] ∧ (∀ call ∈ (plugin.run opts).calls, call.Absorbed host) ∧
      ∀ listener ∈ host.bus.current (js "plugin.ready"), !listener.oneShot

/-- The names that the dispatcher gets. -/
def added : List JsString := if (plugin.config opts).enabled then plugin.names else []

variable {plugin} {host : Host Handler Callback Value}

theorem fresh_of_free (h : ∀ name ∈ plugin.names, name ∉ host.names) :
    host.Fresh plugin.methods.entries :=
  ⟨plugin.methods.nodup, fun _ hentry ↦ h _ (List.mem_map_of_mem hentry)⟩

end PluginModule

section Load

variable [DecidableEq Callback] {opts : LoaderOpts} {host : Host Handler Callback Value}
  {plugin : PluginModule Handler Callback Disposer}

/-- A load that fails restores nothing, so nothing may have been done. -/
theorem loadPlugin_of_fails (h : plugin.Fails opts host.names) :
    (∃ error, (loadPlugin plugin opts host).2 = .error error) ∧
      host.Drift (loadPlugin plugin opts host).1 ∧
      ((loadPlugin plugin opts host).1.Same host ↔ plugin.FailsClean opts host) := by
  obtain ⟨henabled, hreason⟩ := h
  by_cases htaken : ∃ name ∈ plugin.names, name ∈ host.names
  · have hentry : ∃ entry ∈ plugin.methods.entries, entry.1 ∈ host.names := by
      obtain ⟨name, hname, hin⟩ := htaken
      obtain ⟨entry, hentry, rfl⟩ := List.mem_map.mp hname
      exact ⟨entry, hentry, hin⟩
    obtain ⟨first, entry, rest, hentries, hfresh, hstop, hregister⟩ :=
      registerMethods_of_taken plugin.methods.nodup hentry
    have hload : loadPlugin plugin opts host =
        (host.withMethods first, .error (.taken entry.1)) := by
      rw [loadPlugin, henabled, hregister]
      rfl
    rw [hload]
    refine ⟨⟨_, rfl⟩, hfresh.drift, hfresh.same_iff.trans ?_⟩
    have hhead : (∃ name ∈ plugin.names.head?, name ∈ host.names) ↔ first = [] := by
      rw [PluginModule.names, hentries]
      cases first with
      | nil => simpa using hstop
      | cons head first => simpa using hfresh.new head List.mem_cons_self
    rw [← hhead]
    constructor
    · intro hfirst _
      refine ⟨fun _ ↦ hfirst, fun hfree ↦ ?_⟩
      obtain ⟨name, hname, hin⟩ := htaken
      exact absurd hin (hfree name hname)
    · exact fun hclean ↦ (hclean ⟨henabled, hreason⟩).1 htaken
  · have hthrown := hreason.resolve_left htaken
    push Not at htaken
    obtain ⟨message, hmessage⟩ := Option.isSome_iff_exists.mp hthrown
    have hfresh := PluginModule.fresh_of_free htaken
    have hload : loadPlugin plugin opts host =
        ((performAll (plugin.run opts).calls (host.withMethods plugin.methods.entries)).1,
          .error (.init message)) := by
      rw [loadPlugin, henabled, registerMethods_of_fresh hfresh, hmessage]
      rfl
    rw [hload]
    have hdrift : (host.withMethods plugin.methods.entries).Drift (performAll (plugin.run opts).calls
        (host.withMethods plugin.methods.entries)).1 := drift_performAll _
    refine ⟨⟨_, rfl⟩, hfresh.drift.trans hdrift, ?_⟩
    rw [hfresh.drift.same_iff hdrift, hfresh.same_iff, same_performAll_iff]
    have hnames : plugin.methods.entries = [] ↔ plugin.names = [] := List.map_eq_nil_iff.symm
    rw [hnames]
    constructor
    · intro hclean _
      exact ⟨fun ⟨name, hname, hin⟩ ↦ absurd hin (htaken name hname), fun _ ↦ hclean⟩
    · exact fun hclean ↦ (hclean ⟨henabled, hreason⟩).2 htaken

/-- A load that succeeds has all its effects. -/
theorem loadPlugin_of_not_fails (h : ¬ plugin.Fails opts host.names) :
    (∃ loaded, (loadPlugin plugin opts host).2 = .ok loaded ∧
        loaded.registeredMethods = plugin.added opts) ∧
      host.Drift (loadPlugin plugin opts host).1 ∧
      (loadPlugin plugin opts host).1.names = host.names ++ plugin.added opts ∧
      ((loadPlugin plugin opts host).1.Same host ↔ plugin.Inert opts host) := by
  cases henabled : (plugin.config opts).enabled with
  | false =>
    have hload : loadPlugin plugin opts host = (host, .ok ⟨plugin, [], []⟩) := by
      rw [loadPlugin, henabled]
      rfl
    rw [hload]
    refine ⟨⟨_, rfl, by simp [PluginModule.added, henabled]⟩, .refl host,
      by simp [PluginModule.added, henabled], ?_⟩
    exact ⟨fun _ hon ↦ (by simp [henabled] at hon), fun _ ↦ .refl host⟩
  | true =>
    rw [PluginModule.Fails, henabled] at h
    push Not at h
    obtain ⟨hfree, hthrown⟩ := h rfl
    rw [ne_eq, Option.not_isSome_iff_eq_none] at hthrown
    have hfresh := PluginModule.fresh_of_free hfree
    set registered := host.withMethods plugin.methods.entries with hregistered
    set ready := (performAll (plugin.run opts).calls registered).1 with hready
    have hload : loadPlugin plugin opts host = (ready.emit (js "plugin.ready"),
        .ok ⟨plugin, plugin.names, (performAll (plugin.run opts).calls registered).2⟩) := by
      rw [loadPlugin, henabled, registerMethods_of_fresh hfresh, hthrown]
      rfl
    rw [hload]
    have hcalls : registered.Drift ready := drift_performAll _
    have hemit : ready.Drift (ready.emit (js "plugin.ready")) := Host.drift_emit _
    refine ⟨⟨_, rfl, (if_pos henabled).symm⟩, hfresh.drift.trans (hcalls.trans hemit), ?_, ?_⟩
    · have hmethods : ready.methods = registered.methods := methods_performAll _
      change ready.methods.entries.map Prod.fst = _
      rw [hmethods, PluginModule.added, if_pos henabled]
      exact hfresh.names
    · have hnames : plugin.methods.entries = [] ↔ plugin.names = [] := List.map_eq_nil_iff.symm
      rw [hfresh.drift.same_iff (hcalls.trans hemit), hfresh.same_iff, hcalls.same_iff hemit,
        same_performAll_iff, Host.same_emit_iff, hnames, PluginModule.Inert, henabled]
      simp only [forall_const]
      apply and_congr_right
      intro _
      apply and_congr_right
      intro habsorbed
      have hsame : ready.Same registered := (same_performAll_iff _).mpr habsorbed
      rw [hsame.live]
      rfl

theorem methods_foldl_dispose (disposables : List (Disposable Disposer))
    (host : Host Handler Callback Value) :
    (disposables.foldl Host.dispose host).methods = host.methods := by
  induction disposables generalizing host with
  | nil => rfl
  | cons disposable rest ih =>
    rw [List.foldl_cons, ih]
    cases disposable <;> rfl

omit [DecidableEq Callback] in
theorem entries_foldl_unregister (names : List JsString) (host : Host Handler Callback Value) :
    (names.foldl Host.unregister host).methods.entries =
      host.methods.entries.filter fun entry ↦ entry.1 ∉ names := by
  induction names generalizing host with
  | nil => simp
  | cons name rest ih =>
    rw [List.foldl_cons, ih, Host.unregister, JsMap.delete, List.filter_filter]
    apply List.filter_congr
    intro entry _
    by_cases hname : entry.1 = name <;> simp [hname]

/-- The teardown of a plugin that was loaded takes its methods back. -/
theorem methods_destroyPlugin {loaded : LoadedPlugin Handler Callback Disposer}
    (h : (loadPlugin plugin opts host).2 = .ok loaded) :
    (destroyPlugin loaded (loadPlugin plugin opts host).1).methods = host.methods := by
  have hfails : ¬ plugin.Fails opts host.names := by
    intro hfails
    obtain ⟨⟨error, herror⟩, -⟩ := loadPlugin_of_fails hfails
    cases herror.symm.trans h
  obtain ⟨⟨other, hother, hregistered⟩, hdrift, hnames, -⟩ := loadPlugin_of_not_fails hfails
  obtain rfl : other = loaded := Except.ok.inj (hother.symm.trans h)
  obtain ⟨more, hmore⟩ := hdrift.methods
  have hadded : more.map Prod.fst = plugin.added opts := by
    rw [Host.names, ← hmore, List.map_append] at hnames
    exact List.append_cancel_left hnames
  have hnodup := (loadPlugin plugin opts host).1.methods.nodup
  rw [← hmore, List.map_append, List.nodup_append, hadded] at hnodup
  apply JsMap.ext_entries
  rw [destroyPlugin, entries_foldl_unregister, methods_foldl_dispose, ← hmore, List.filter_append,
    hregistered]
  have hkept : host.methods.entries.filter (fun entry ↦ entry.1 ∉ plugin.added opts) =
      host.methods.entries := by
    refine List.filter_eq_self.mpr fun entry hentry ↦ decide_eq_true fun hin ↦ ?_
    exact hnodup.2.2 entry.1 (List.mem_map_of_mem hentry) entry.1 hin rfl
  have hgone : more.filter (fun entry ↦ entry.1 ∉ plugin.added opts) = [] := by
    refine List.filter_eq_nil_iff.mpr fun entry hentry ↦ ?_
    simpa [← hadded] using ⟨entry.2, hentry⟩
  rw [hkept, hgone, List.append_nil]

end Load

/-! ## Loading all plugins -/

section LoadAll

variable (opts : LoaderOpts)

/-- No plugin of the list fails. -/
def AllLoad : List JsString → List (PluginModule Handler Callback Disposer) → Prop
  | _, [] => True
  | taken, plugin :: rest =>
    ¬ plugin.Fails opts taken ∧ AllLoad (taken ++ plugin.added opts) rest

/-- If one of the plugins fails, it does so before its first effect, and those in front of it have
none. -/
def AllClean (host : Host Handler Callback Value) :
    List (PluginModule Handler Callback Disposer) → Prop
  | [] => True
  | plugin :: rest =>
    (plugin.Fails opts host.names → plugin.FailsClean opts host) ∧
      (¬ plugin.Fails opts host.names → ¬ AllLoad opts (host.names ++ plugin.added opts) rest →
        plugin.Inert opts host ∧ AllClean host rest)

variable {opts} {first second : Host Handler Callback Value}

theorem Host.Same.failsClean_iff (h : first.Same second)
    (plugin : PluginModule Handler Callback Disposer) :
    plugin.FailsClean opts first ↔ plugin.FailsClean opts second := by
  simp only [PluginModule.FailsClean, h.names, h.absorbed_iff]

theorem Host.Same.inert_iff (h : first.Same second)
    (plugin : PluginModule Handler Callback Disposer) :
    plugin.Inert opts first ↔ plugin.Inert opts second := by
  simp only [PluginModule.Inert, h.live, h.absorbed_iff]

theorem Host.Same.allClean_iff (h : first.Same second)
    (plugins : List (PluginModule Handler Callback Disposer)) :
    AllClean opts first plugins ↔ AllClean opts second plugins := by
  induction plugins with
  | nil => rfl
  | cons plugin rest ih =>
    simp only [AllClean, h.names, h.failsClean_iff, h.inert_iff, ih]

variable [DecidableEq Callback]

theorem loadEach_cons_of_ok {plugin : PluginModule Handler Callback Disposer}
    {loaded : LoadedPlugin Handler Callback Disposer}
    (rest : List (PluginModule Handler Callback Disposer))
    (h : (loadPlugin plugin opts first).2 = .ok loaded) :
    loadEach opts (plugin :: rest) first =
      (loadEach opts rest (loadPlugin plugin opts first).1).map id
        fun others ↦ others.map (loaded :: ·) := by
  rw [loadEach, ← Prod.mk.eta (p := loadPlugin plugin opts first), h]

theorem loadEach_cons_of_error {plugin : PluginModule Handler Callback Disposer} {error : LoadError}
    (rest : List (PluginModule Handler Callback Disposer))
    (h : (loadPlugin plugin opts first).2 = .error error) :
    loadEach opts (plugin :: rest) first = ((loadPlugin plugin opts first).1, .error error) := by
  rw [loadEach, ← Prod.mk.eta (p := loadPlugin plugin opts first), h]

theorem loadEach_spec (plugins : List (PluginModule Handler Callback Disposer))
    (host : Host Handler Callback Value) :
    host.Drift (loadEach opts plugins host).1 ∧
      ((∃ error, (loadEach opts plugins host).2 = .error error) ↔
        ¬ AllLoad opts host.names plugins) := by
  induction plugins generalizing host with
  | nil => exact ⟨.refl host, by simp [loadEach, AllLoad]⟩
  | cons plugin rest ih =>
    by_cases hfails : plugin.Fails opts host.names
    · obtain ⟨⟨error, herror⟩, hdrift, -⟩ := loadPlugin_of_fails hfails
      rw [loadEach_cons_of_error rest herror]
      exact ⟨hdrift, by simp [AllLoad, hfails]⟩
    · obtain ⟨⟨loaded, hloaded, -⟩, hdrift, hnames, -⟩ := loadPlugin_of_not_fails hfails
      obtain ⟨hrest, herrors⟩ := ih (loadPlugin plugin opts host).1
      rw [loadEach_cons_of_ok rest hloaded]
      refine ⟨hdrift.trans hrest, ?_⟩
      rw [AllLoad, and_iff_right hfails, ← hnames, ← herrors, Prod.map_snd]
      rcases (loadEach opts rest (loadPlugin plugin opts host).1).2 with error | others
      · simp [Except.map]
      · simp [Except.map]

/-- A series of loads that fails has left the host as it was exactly if nothing in it had an effect
up to the error. -/
theorem loadEach_clean_iff (plugins : List (PluginModule Handler Callback Disposer))
    (host : Host Handler Callback Value) :
    ((∃ error, (loadEach opts plugins host).2 = .error error) →
        (loadEach opts plugins host).1.Same host) ↔ AllClean opts host plugins := by
  induction plugins generalizing host with
  | nil => simp [loadEach, AllClean]
  | cons plugin rest ih =>
    rw [AllClean]
    by_cases hfails : plugin.Fails opts host.names
    · obtain ⟨⟨error, herror⟩, -, hclean⟩ := loadPlugin_of_fails hfails
      rw [loadEach_cons_of_error rest herror]
      simp [hfails, hclean]
    · obtain ⟨⟨loaded, hloaded, -⟩, hdrift, hnames, hinert⟩ := loadPlugin_of_not_fails hfails
      obtain ⟨hrest, herrors⟩ := @loadEach_spec _ _ _ _ opts _ rest (loadPlugin plugin opts host).1
      have herror : (∃ error, (loadEach opts (plugin :: rest) host).2 = .error error) ↔
          ¬ AllLoad opts (host.names ++ plugin.added opts) rest := by
        rw [(loadEach_spec (plugin :: rest) host).2, AllLoad, and_iff_right hfails]
      rw [herror, loadEach_cons_of_ok rest hloaded]
      simp only [hfails, false_implies, true_and, not_false_eq_true, forall_const]
      apply imp_congr_right
      intro hstop
      change (loadEach opts rest (loadPlugin plugin opts host).1).1.Same host ↔ _
      rw [hdrift.same_iff hrest, hinert]
      apply and_congr_right
      intro hplugin
      rw [← (hinert.mpr hplugin).allClean_iff, ← ih]
      rw [hnames] at herrors
      exact ⟨fun h _ ↦ h, fun h ↦ h (herrors.mpr hstop)⟩

/-- A load that is refused leaves the methods and the live subscriptions as they were exactly if it
fails before its first effect; and loading all plugins does so exactly if nothing had an effect up
to the first that fails. -/
theorem load_all_or_nothing_iff (opts : LoaderOpts) (host : Host Handler Callback Value) :
    (∀ plugin : PluginModule Handler Callback Disposer,
      ((∃ error, (loadPlugin plugin opts host).2 = .error error) →
        (loadPlugin plugin opts host).1.Same host) ↔ plugin.FailsClean opts host) ∧
    ∀ plugins : List (PluginModule Handler Callback Disposer),
      ((∃ error, (loadAll plugins opts host).2 = .error error) →
        (loadAll plugins opts host).1.Same host) ↔
        ∀ sorted, sortModules plugins = .ok sorted → AllClean opts host sorted := by
  constructor
  · intro plugin
    by_cases hfails : plugin.Fails opts host.names
    · obtain ⟨herror, -, hclean⟩ := loadPlugin_of_fails hfails
      rw [← hclean]
      exact ⟨fun h ↦ h herror, fun h _ ↦ h⟩
    · obtain ⟨⟨loaded, hloaded, -⟩, -⟩ := loadPlugin_of_not_fails hfails
      refine ⟨fun _ hfail ↦ absurd hfail hfails, ?_⟩
      rintro - ⟨error, herror⟩
      cases hloaded.symm.trans herror
  · intro plugins
    rw [loadAll]
    cases hsort : sortModules plugins with
    | error error => exact ⟨fun _ sorted hsorted ↦ (by cases hsorted), fun _ _ ↦ .refl host⟩
    | ok sorted =>
      refine (loadEach_clean_iff sorted host).trans ⟨?_, fun h ↦ h sorted rfl⟩
      rintro hclean _ ⟨⟩
      exact hclean

end LoadAll

/-! ## A failed load -/

def plainOpts : LoaderOpts := ⟨fun _ ↦ none, none⟩

def emptyHost : Host ℕ ℕ Unit := ⟨.empty, createServiceBus, ServiceBus.wired_create⟩

/-- A plugin with one method, whose `init` subscribes and then throws. -/
def brokenPlugin : PluginModule ℕ ℕ Unit where
  name := js "broken"
  order := none
  methods := JsMap.empty.set (js "broken.run") 0
  init := some fun _ ↦ ⟨[.subscribe (js "tick") 0], some (js "no")⟩

/-- The method and the subscription of a plugin that was refused are still there. -/
theorem failed_load_leaves_method :
    ¬ ((∃ error, (loadPlugin brokenPlugin plainOpts emptyHost).2 = .error error) →
      (loadPlugin brokenPlugin plainOpts emptyHost).1.Same emptyHost) := by
  intro h
  have hmethods := congrArg JsMap.entries (h ⟨.init (js "no"), rfl⟩).methods
  revert hmethods
  decide

end Cordyceps.Plugins

import Cordyceps.Cli.Client
import Cordyceps.Foundations.Slots

/-!
# Calls and their ids

Whatever happens to a client, its calls are numbered in the order in which they
were made, a call that was settled stays as it is, and a pending id is the id of
the call that waits under it.
-/

namespace Cordyceps.Cli

open Foundations Cordyceps.Transport

/-- The call got an answer, rather than a timeout, the end of the connection or its own error. -/
def FromServer : CallFate → Prop
  | .fulfilled _ | .rejected (.rpcError _ _ _) => True
  | .pending | .rejected .timedOut | .rejected .connectionClosed | .rejected .notSerialisable => False

/-- A call is the one with this number: its request bears the number as its id. -/
def Numbered (k : ℕ) (call : Call) : Prop :=
  call.id = k + 1 ∧ call.request.field (js "id") = some (.num ((k + 1 : ℕ) : ℚ))

/-- The change settles the promise of a call and leaves the rest of what it is. -/
def SettlesWith (fate : CallFate) (change : Call → Call) : Prop :=
  ∀ call, (change call).id = call.id ∧ (change call).request = call.request ∧
    (change call).promise = call.promise.settle fate

theorem settlesWith_finish (fate : CallFate) : SettlesWith fate (Call.finish fate) :=
  fun _ ↦ ⟨rfl, rfl, rfl⟩

theorem settlesWith_settle (fate : CallFate) : SettlesWith fate (Call.settle fate) :=
  fun _ ↦ ⟨rfl, rfl, rfl⟩

/-- What happens to the calls of a client: some are settled, with fates from the server only where
that is `allowed`, and new ones are added. -/
inductive CallsTurn (allowed : Json → CallFate → Prop) : List Call → List Call → Prop
  | refl (calls : List Call) : CallsTurn allowed calls calls
  | trans {first second third : List Call} (h : CallsTurn allowed first second)
      (h' : CallsTurn allowed second third) : CallsTurn allowed first third
  | settle {calls : List Call} (k : ℕ) (fate : CallFate) (change : Call → Call)
      (hchange : SettlesWith fate change)
      (hallowed : FromServer fate → ∀ call, calls[k]? = some call → allowed call.request fate) :
      CallsTurn allowed calls (calls.modify k change)
  | add {calls : List Call} (call : Call) (hnumber : Numbered calls.length call)
      (hpending : call.promise.fate = .pending) : CallsTurn allowed calls (calls ++ [call])

namespace CallsTurn

variable {allowed : Json → CallFate → Prop} {before after : List Call}

theorem numbered (h : CallsTurn allowed before after) (hbefore : Each Numbered before) :
    Each Numbered after := by
  induction h with
  | refl calls => exact hbefore
  | trans _ _ ih ih' => exact ih' (ih hbefore)
  | settle k fate change hchange _ =>
    refine hbefore.modify (fun _ _ _ hnumber ↦ hnumber) fun call _ hnumber ↦ ?_
    obtain ⟨hid, hrequest, _⟩ := hchange call
    exact ⟨hid.trans hnumber.1, hrequest ▸ hnumber.2⟩
  | add call hnumber _ => exact hbefore.concat hnumber

/-- No settled call changes its fate. -/
theorem kept (h : CallsTurn allowed before after) {k : ℕ} {call : Call} (hget : before[k]? = some call)
    (hsettled : call.promise.fate ≠ .pending) :
    ∃ call', after[k]? = some call' ∧ call'.promise.fate = call.promise.fate := by
  induction h generalizing call with
  | refl calls => exact ⟨call, hget, rfl⟩
  | trans _ _ ih ih' =>
    obtain ⟨middle, hmiddle, hsame⟩ := ih hget hsettled
    obtain ⟨last, hlast, hsame'⟩ := ih' hmiddle (hsame ▸ hsettled)
    exact ⟨last, hlast, hsame'.trans hsame⟩
  | settle j fate change hchange _ =>
    by_cases hj : j = k
    · subst hj
      refine ⟨change call, by simp [hget], ?_⟩
      rw [(hchange call).2.2, Promise.settle_of_settled hsettled]
    · exact ⟨call, by simp [hj, hget], rfl⟩
  | add other _ _ =>
    exact ⟨call, (List.getElem?_append_left (List.getElem?_eq_some_iff.mp hget).1).trans hget, rfl⟩

/-- Fates from the server are allowed ones. -/
theorem justified (h : CallsTurn allowed before after)
    (hbefore : Each (fun _ call ↦ FromServer call.promise.fate →
      allowed call.request call.promise.fate) before) :
    Each (fun _ call ↦ FromServer call.promise.fate → allowed call.request call.promise.fate) after := by
  induction h with
  | refl calls => exact hbefore
  | trans _ _ ih ih' => exact ih' (ih hbefore)
  | settle k fate change hchange hallowed =>
    refine hbefore.modify (fun _ _ _ hcall ↦ hcall) fun call hget hcall ↦ ?_
    obtain ⟨_, hrequest, hpromise⟩ := hchange call
    rw [hrequest, hpromise]
    rcases call.promise.settle_cases fate with ⟨_, hfate⟩ | ⟨_, hsame⟩
    · rw [hfate]
      exact fun hserver ↦ hallowed hserver call hget
    · rw [hsame]
      exact hcall
  | add call _ hpending =>
    refine hbefore.concat fun hserver ↦ ?_
    rw [hpending] at hserver
    exact hserver.elim

theorem requests (h : CallsTurn allowed before after) :
    before.map Call.request <+: after.map Call.request := by
  induction h with
  | refl calls => exact List.prefix_refl _
  | trans _ _ ih ih' => exact ih.trans ih'
  | @settle calls k fate change hchange _ =>
    have hsame : (calls.modify k change).map Call.request = calls.map Call.request := by
      apply List.ext_getElem?
      intro position
      rw [List.getElem?_map, List.getElem?_map, List.getElem?_modify]
      cases calls[position]? with
      | none => rfl
      | some call => by_cases hk : k = position <;> simp [hk, (hchange call).2.1]
    exact hsame ▸ List.prefix_refl _
  | add call _ _ =>
    rw [List.map_append]
    exact List.prefix_append _ _

/-- Calls are ended one after the other. -/
theorem foldl_finish {fate : CallFate} (hfate : ¬ FromServer fate) (ks : List ℕ) (calls : List Call) :
    CallsTurn allowed calls (ks.foldl (fun calls k ↦ calls.modify k (Call.finish fate)) calls) := by
  induction ks generalizing calls with
  | nil => exact .refl calls
  | cons k rest ih =>
    have hfirst : CallsTurn allowed calls (calls.modify k (Call.finish fate)) :=
      .settle k fate _ (settlesWith_finish fate) fun hserver ↦ absurd hserver hfate
    exact hfirst.trans (ih _)

end CallsTurn

/-- Ids count the calls, and a pending id is that of its call. -/
structure ClientSound (client : RpcClient) : Prop where
  nextId : client.nextId = client.calls.length + 1
  numbered : Each Numbered client.calls
  pending : ∀ id k, client.pending.get id = some k →
    id = .num ((k + 1 : ℕ) : ℚ) ∧ k < client.calls.length

namespace ClientSound

variable {allowed : Json → CallFate → Prop} {client : RpcClient}

theorem create : ClientSound .create := ⟨rfl, .nil, nofun⟩

theorem call_turn (h : ClientSound client) (method : JsString) (params : Option Json) :
    CallsTurn allowed client.calls (client.call method params).calls := by
  refine .add _ ⟨h.nextId, ?_⟩ rfl
  have hfield : (Call.frame method params client.nextId).field (js "id") =
      some (.num client.nextId) := by
    cases params <;> rfl
  rw [hfield, h.nextId]

theorem call (h : ClientSound client) (method : JsString) (params : Option Json) :
    ClientSound (client.call method params) where
  nextId := by simp [RpcClient.call, h.nextId]
  numbered := (@call_turn (fun _ _ ↦ True) _ h method params).numbered h.numbered
  pending := by
    intro id k hget
    simp only [RpcClient.call, JsMap.get_set] at hget
    simp only [RpcClient.call, List.length_append, List.length_singleton]
    split at hget
    · rename_i hid
      cases hget
      rw [hid, h.nextId]
      exact ⟨rfl, Nat.lt_succ_self _⟩
    · obtain ⟨hid, hlt⟩ := h.pending id k hget
      exact ⟨hid, Nat.lt_succ_of_lt hlt⟩

theorem settle (h : ClientSound client) (k : ℕ) (fate : CallFate) (change : Call → Call)
    (hchange : SettlesWith fate change) {pending : JsMap Json ℕ}
    (hpending : ∀ id k, pending.get id = some k → client.pending.get id = some k) :
    ClientSound { client with pending := pending, calls := client.calls.modify k change } where
  nextId := by
    rw [List.length_modify]
    exact h.nextId
  numbered := by
    have hturn : CallsTurn (fun _ _ ↦ True) client.calls (client.calls.modify k change) :=
      .settle k fate change hchange fun _ _ _ ↦ trivial
    exact hturn.numbered h.numbered
  pending := by
    intro id j hget
    rw [List.length_modify]
    exact h.pending id j (hpending id j hget)

theorem callThrows (h : ClientSound client) (method : JsString) :
    ClientSound (client.callThrows method) :=
  (h.call method none).settle _ _ _ (settlesWith_settle _) fun _ _ hget ↦ hget

theorem get_of_delete {pending : JsMap Json ℕ} {key id : Json} {k : ℕ}
    (h : (pending.delete key).get id = some k) : pending.get id = some k := by
  rw [JsMap.get_delete] at h
  split at h
  · cases h
  · exact h

theorem onMessage (h : ClientSound client) (msg : Json) : ClientSound (client.onMessage msg) := by
  unfold RpcClient.onMessage
  split
  · exact h.settle _ _ _ (settlesWith_finish _) fun _ _ ↦ get_of_delete
  · exact h

theorem timeOut (h : ClientSound client) (k : ℕ) : ClientSound (client.timeOut k) := by
  unfold RpcClient.timeOut
  split
  · exact h.settle _ _ _ (settlesWith_finish _) fun _ _ ↦ get_of_delete
  · exact h

theorem length_onClose (client : RpcClient) : client.onClose.calls.length = client.calls.length := by
  unfold RpcClient.onClose
  simp only
  generalize client.calls = calls
  induction client.pending.values generalizing calls with
  | nil => rfl
  | cons k rest ih => rw [List.foldl_cons, ih, List.length_modify]

theorem onClose (h : ClientSound client) : ClientSound client.onClose where
  nextId := by
    rw [length_onClose]
    exact h.nextId
  numbered := by
    have hturn : CallsTurn (fun _ _ ↦ True) client.calls client.onClose.calls :=
      CallsTurn.foldl_finish id _ _
    exact hturn.numbered h.numbered
  pending := nofun

theorem callThrows_turn (h : ClientSound client) (method : JsString) :
    CallsTurn allowed client.calls (client.callThrows method).calls :=
  (h.call_turn method none).trans
    (.settle _ _ _ (settlesWith_settle _) fun hserver ↦ hserver.elim)

end ClientSound

section Turns

variable {allowed : Json → CallFate → Prop} (client : RpcClient)

theorem timeOut_turn (k : ℕ) : CallsTurn allowed client.calls (client.timeOut k).calls := by
  unfold RpcClient.timeOut
  split
  · exact .settle _ _ _ (settlesWith_finish _) fun hserver ↦ hserver.elim
  · exact .refl _

theorem onClose_turn : CallsTurn allowed client.calls client.onClose.calls :=
  CallsTurn.foldl_finish id _ _

/-- A frame settles the call that is pending under its id, if there is one. -/
theorem onMessage_turn {client : RpcClient} {msg : Json} (hallowed : ∀ id k call,
    msg.field (js "id") = some id → client.pending.get id = some k → client.calls[k]? = some call →
      allowed call.request (RpcClient.fateOf msg)) :
    CallsTurn allowed client.calls (client.onMessage msg).calls := by
  unfold RpcClient.onMessage
  split
  · rename_i id k hid hpending
    rw [RpcClient.pendingFor, hid, Option.bind_some] at hpending
    exact .settle k _ _ (settlesWith_finish _) fun _ call hcall ↦ hallowed id k call hid hpending hcall
  · exact .refl _

end Turns

end Cordyceps.Cli

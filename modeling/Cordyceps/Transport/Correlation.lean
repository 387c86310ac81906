import Cordyceps.Cli.Calls
import Cordyceps.Foundations.StepMachine
import Cordyceps.Transport.Connections

/-!
# Responses find their calls

Handlers finish in any order, notifications come in between, timers fire and
connections break. Ids are handed out once for each connection, a frame arrives
at most once, and a response bears the id of the frame it answers: that ties a
pending id to one call, the call to one handler, and the handler to one frame on
the way back.
-/

namespace Cordyceps.Transport

open Foundations Foundations.StepMachine Cordyceps.Cli

/-! ## What is promised -/

/-- The fate that a call takes from the outcome of its handler. -/
def Outcome.fate : Outcome → CallFate
  | .returned result => .fulfilled (some (result.getD .null))
  | .thrown (.methodError code message data) =>
    .rejected (.rpcError (some (.num code)) (some (.str message)) data)
  | .thrown (.error text) => .rejected (.rpcError (some (.num JsonRpcError.internalError))
      (some (.str (js "Internal error"))) (some (.str text)))

/-- The fate of a call for a method that does not exist. -/
def unknownMethodFate (method : JsString) : CallFate :=
  .rejected (.rpcError (some (.num JsonRpcError.methodNotFound))
    (some (.str (js "Method not found: " ++ method))) none)

/-- The daemon took the frame from the connection and answered it, and this is what came of it. -/
def Received.Decides (received : Received) (fate : CallFate) : Prop :=
  received.answered = true ∧
    ((∃ outcome, received.work = .finished outcome ∧ fate = outcome.fate) ∨
      received.work = .unknownMethod ∧ fate = unknownMethodFate received.methodOf)

/-- A frame of the daemon's log is this request on this connection. -/
def Received.Is (received : Received) (c : ℕ) (request : Json) : Prop :=
  received.conn = c ∧ received.raw = some request

namespace RpcWorld

/-- Whatever was settled before the turn is settled in the same way after it. -/
def SettlesOnce (world : RpcWorld) (_ : RpcEvent) (next : RpcWorld) : Prop :=
  ∀ (c k : ℕ) connection call, world.connections[c]? = some connection →
    connection.client.calls[k]? = some call → call.promise.fate ≠ .pending →
      ∃ connection' call', next.connections[c]? = some connection' ∧
        connection'.client.calls[k]? = some call' ∧ call'.promise.fate = call.promise.fate

/-- A call that was answered has the outcome of the one frame of its connection that is its
request; and the daemon sends one response with its id for a request, and none for a notification. -/
structure Correlated (world : RpcWorld) : Prop where
  settled : ∀ (c k : ℕ) connection call, world.connections[c]? = some connection →
    connection.client.calls[k]? = some call → FromServer call.promise.fate →
      ∃ n received, world.received[n]? = some received ∧ received.Is c call.request ∧
        received.Decides call.promise.fate ∧
        ∀ other, At (fun received ↦ received.Is c call.request) other world.received → other = n
  answered : ∀ (n : ℕ) (received : Received) (raw : Json), world.received[n]? = some received →
    received.raw = some raw → isRequest raw = true →
      if received.answered then
        ∃ response : Json, received.produced = [response] ∧
          response.field (js "id") = raw.field (js "id")
      else received.produced = [] ∧ (received.work = .running ∨ (world.step (.respond n)).isSome)
  silent : ∀ (n : ℕ) (received : Received) (raw : Json), world.received[n]? = some received →
    received.raw = some raw → isNotification raw = true → received.produced = []

end RpcWorld

/-! ## Frames -/

/-- What the daemon took from a connection, in order. -/
def arrivals (received : List Received) (c : ℕ) : List (Option Json) :=
  (received.filter fun frame ↦ frame.conn = c).map Received.raw

/-- The frame is the response to one that was taken from the connection. -/
def Answers (received : List Received) (c : ℕ) (frame : Json) : Prop :=
  ∃ n, At (fun taken ↦ taken.conn = c ∧ taken.answered = true ∧ taken.response = some frame) n received

/-- A request that was taken from the connection was answered with this fate. -/
def Justified (received : List Received) (c : ℕ) (request : Json) (fate : CallFate) : Prop :=
  ∃ n, At (fun taken ↦ taken.Is c request ∧ taken.Decides fate) n received

/-- Frames that were answered stay in the log as they are. -/
def Kept (received received' : List Received) : Prop :=
  ∀ (n : ℕ) taken, received[n]? = some taken → taken.answered = true → received'[n]? = some taken

theorem Answers.kept {received received' : List Received} {c : ℕ} {frame : Json}
    (h : Answers received c frame) (hkept : Kept received received') : Answers received' c frame := by
  obtain ⟨n, taken, hget, hconn, hanswered, hresponse⟩ := h
  exact ⟨n, taken, hkept n taken hget hanswered, hconn, hanswered, hresponse⟩

theorem Justified.kept {received received' : List Received} {c : ℕ} {request : Json}
    {fate : CallFate} (h : Justified received c request fate) (hkept : Kept received received') :
    Justified received' c request fate := by
  obtain ⟨n, taken, hget, his, hdecides⟩ := h
  exact ⟨n, taken, hkept n taken hget hdecides.1, his, hdecides⟩

/-- The work on a frame is of the kind that the frame asks for, and its response was sent once it was
answered. -/
structure Logged (taken : Received) : Prop where
  fits : match taken.raw with
    | none => taken.work = .unparsable
    | some raw => (isNotification raw = true → taken.work = .notification) ∧
      (isNotification raw = false → isRequest raw = true → taken.work = .unknownMethod ∨
        taken.work = .running ∨ ∃ outcome, taken.work = .finished outcome) ∧
      (isNotification raw = false → isRequest raw = false → taken.work = .invalid)
  produced : taken.produced = if taken.answered then taken.response.toList else []
  done : taken.answered = true → taken.work ≠ .running

/-- The state of a connection, seen from the log of the daemon. -/
structure Linked (received : List Received) (c : ℕ) (connection : Connection) : Prop where
  client : ClientSound connection.client
  strange : connection.foreign = true → connection.client.calls = []
  sent : connection.foreign = false → (arrivals received c ++ connection.toServer).Sublist
    ((connection.client.calls.map Call.request).map some)
  inflight : ∀ frame ∈ connection.toClient, ∀ id, frame.field (js "id") = some id →
    Answers received c frame
  settled : Each (fun _ call ↦ FromServer call.promise.fate →
    Justified received c call.request call.promise.fate) connection.client.calls

theorem field_response (outcome : Outcome) (id : Json) :
    (outcome.response id).field (js "id") = some id := by
  cases outcome with
  | returned result => exact field_success _ _
  | thrown error => cases error <;> exact field_failure _ _ _ _

theorem fateOf_response (outcome : Outcome) (id : Json) :
    RpcClient.fateOf (outcome.response id) = outcome.fate := by
  cases outcome with
  | returned result => rfl
  | thrown error =>
    cases error with
    | methodError code message data => cases data <;> rfl
    | error text => rfl

theorem fateOf_unknownMethod (method : JsString) (id : Json) :
    RpcClient.fateOf (failure JsonRpcError.methodNotFound (js "Method not found: " ++ method) none id) =
      unknownMethodFate method := rfl

/-- A response with a number for its id answers a request with that id, and decides its call. -/
theorem decides_of_response {taken : Received} (hanswered : taken.answered = true) {frame : Json}
    (hresponse : taken.response = some frame) {value : ℚ}
    (hid : frame.field (js "id") = some (.num value)) :
    (∃ raw, taken.raw = some raw ∧ raw.field (js "id") = some (.num value)) ∧
      taken.Decides (RpcClient.fateOf frame) := by
  have hraw : taken.idOf = .num value → ∃ raw, taken.raw = some raw ∧
      raw.field (js "id") = some (.num value) := by
    intro heq
    unfold Received.idOf at heq
    cases hraw : taken.raw with
    | none =>
      rw [hraw] at heq
      cases heq
    | some raw =>
      rw [hraw, Option.bind_some] at heq
      cases hfield : raw.field (js "id") with
      | none =>
        rw [hfield] at heq
        cases heq
      | some id =>
        rw [hfield, Option.getD_some] at heq
        exact ⟨raw, rfl, heq ▸ hfield⟩
  unfold Received.response at hresponse
  split at hresponse
  · cases hresponse
    rw [field_failure] at hid
    cases hid
  · cases hresponse
    rw [field_failure] at hid
    cases hid
  · rename_i hwork
    cases hresponse
    rw [field_failure, Option.some.injEq] at hid
    exact ⟨hraw hid, hanswered, .inr ⟨hwork, fateOf_unknownMethod _ _⟩⟩
  · rename_i outcome hwork
    cases hresponse
    rw [field_response, Option.some.injEq] at hid
    exact ⟨hraw hid, hanswered, .inl ⟨outcome, hwork, fateOf_response outcome _⟩⟩
  · cases hresponse
  · cases hresponse

namespace Linked

variable {received received' : List Received} {c : ℕ} {connection : Connection}

theorem create (h : arrivals received c = []) (foreign : Bool) :
    Linked received c (.create foreign) where
  client := .create
  strange := fun _ ↦ rfl
  sent := fun _ ↦ by
    rw [h]
    exact List.Sublist.refl _
  inflight := nofun
  settled := .nil

/-- The log of the daemon grows, and not by frames of this connection. -/
theorem of_received (h : Linked received c connection)
    (hkept : Kept received received') (harrivals : arrivals received' c = arrivals received c) :
    Linked received' c connection where
  client := h.client
  strange := h.strange
  sent := harrivals ▸ h.sent
  inflight := fun frame hmem id hid ↦ (h.inflight frame hmem id hid).kept hkept
  settled := h.settled.mono fun _ _ hcall hserver ↦ (hcall hserver).kept hkept

/-- The client does something with its calls. -/
theorem onClient (h : Linked received c connection) {change : RpcClient → RpcClient}
    (hsound : ClientSound (change connection.client))
    (hturn : CallsTurn (Justified received c) connection.client.calls
      (change connection.client).calls)
    (hstrange : connection.client.calls = [] → connection.foreign = true →
      (change connection.client).calls = []) : Linked received c (connection.onClient change) where
  client := hsound
  strange := fun hforeign ↦ hstrange (h.strange hforeign) hforeign
  sent := fun hforeign ↦ (h.sent hforeign).trans (hturn.requests.map some).sublist
  inflight := h.inflight
  settled := hturn.justified h.settled

/-- The ends of the connection, and what is on its way. -/
theorem withEnds (h : Linked received c connection) {sending listening opened attached : Bool}
    {toServer : List (Option Json)} {toClient : List Json}
    (hsent : connection.foreign = false → (arrivals received c ++ toServer).Sublist
      ((connection.client.calls.map Call.request).map some))
    (hinflight : ∀ frame ∈ toClient, ∀ id, frame.field (js "id") = some id →
      Answers received c frame) :
    Linked received c ⟨connection.foreign, connection.client, sending, listening, toServer, toClient,
      opened, attached⟩ :=
  ⟨h.client, h.strange, hsent, hinflight, h.settled⟩

theorem send (h : Linked received c connection) {frame : Json}
    (hframe : ∀ id, frame.field (js "id") = some id → Answers received c frame) :
    Linked received c (connection.send frame) := by
  unfold Connection.send
  split
  · refine h.withEnds h.sent fun other hmem ↦ ?_
    rcases List.mem_append.mp hmem with hold | hlast
    · exact h.inflight other hold
    · rw [List.mem_singleton.mp hlast]
      exact hframe
  · exact h

theorem call (h : Linked received c connection) (hforeign : connection.foreign = false)
    (method : JsString) (params : Option Json) : Linked received c (connection.call method params) := by
  have hturn := @ClientSound.call_turn (Justified received c) _ h.client method params
  have hcalled : Linked received c (connection.onClient (RpcClient.call method params)) :=
    h.onClient (h.client.call method params) hturn fun _ hnot ↦ by
      rw [hforeign] at hnot
      cases hnot
  unfold Connection.call Connection.post
  split
  · refine hcalled.withEnds (fun _ ↦ ?_) hcalled.inflight
    change (arrivals received c ++ (connection.toServer ++ [_])).Sublist
      (((connection.client.calls ++ [_]).map Call.request).map some)
    rw [← List.append_assoc, List.map_append, List.map_append]
    exact (h.sent hforeign).append (List.Sublist.refl _)
  · exact hcalled

theorem foreign (h : Linked received c connection) (hforeign : connection.foreign = true)
    (raw : Option Json) : Linked received c (connection.post raw) := by
  unfold Connection.post
  split
  · refine h.withEnds (fun hnot ↦ ?_) h.inflight
    rw [hforeign] at hnot
    cases hnot
  · exact h

theorem callThrows (h : Linked received c connection) (hforeign : connection.foreign = false)
    (method : JsString) : Linked received c (connection.onClient (RpcClient.callThrows method)) := by
  refine h.onClient (h.client.callThrows method) (h.client.callThrows_turn method) fun _ hnot ↦ ?_
  rw [hforeign] at hnot
  cases hnot

theorem timeOut (h : Linked received c connection) (k : ℕ) :
    Linked received c (connection.onClient (RpcClient.timeOut k)) := by
  refine h.onClient (h.client.timeOut k) (timeOut_turn _ k) fun hnone _ ↦ ?_
  simp [RpcClient.timeOut, hnone]

theorem close (h : Linked received c connection) : Linked received c connection.close := by
  have hended : Linked received c { connection with sending := false, listening := false } :=
    h.withEnds h.sent h.inflight
  refine hended.onClient hended.client.onClose (onClose_turn _) fun hnone _ ↦ ?_
  apply List.eq_nil_of_length_eq_zero
  rw [ClientSound.length_onClose, hnone]
  rfl

/-- The client takes the next frame: if it settles a call, it is the answer to that call. -/
theorem deliver (h : Linked received c connection) {frame : Json} {rest : List Json}
    (hframe : connection.toClient = frame :: rest) : Linked received c (connection.deliver frame rest) := by
  have hpopped : Linked received c { connection with toClient := rest } :=
    h.withEnds h.sent fun other hmem ↦ h.inflight other (hframe ▸ List.mem_cons_of_mem _ hmem)
  refine hpopped.onClient (h.client.onMessage frame) (onMessage_turn ?_) fun hnone _ ↦ ?_
  · intro id k call hid hpending hcall
    obtain ⟨hnumber, hlt⟩ := h.client.pending id k hpending
    rw [hnumber] at hid
    obtain ⟨n, taken, hget, hconn, hanswered, hresponse⟩ :=
      h.inflight frame (hframe ▸ List.mem_cons_self) _ hid
    obtain ⟨⟨raw, hraw, hrawId⟩, hdecides⟩ := decides_of_response hanswered hresponse hid
    have hforeign : connection.foreign = false := by
      by_contra hnot
      rw [h.strange (by simpa using hnot)] at hlt
      exact absurd hlt (Nat.not_lt_zero _)
    have harrived : some raw ∈ arrivals received c := by
      refine List.mem_map.mpr ⟨taken, ?_, hraw⟩
      exact List.mem_filter.mpr ⟨List.mem_of_getElem? hget, decide_eq_true hconn⟩
    have hsent := (h.sent hforeign).subset (List.mem_append_left _ harrived)
    rw [List.map_map, List.mem_map] at hsent
    obtain ⟨other, hother, heq⟩ := hsent
    obtain ⟨j, hj⟩ := List.mem_iff_getElem?.mp hother
    have hnumbered := (h.client.numbered j other hj).2
    have hsame : other.request = raw := Option.some.inj heq
    rw [hsame, hrawId, Option.some.injEq, Json.num.injEq] at hnumbered
    have hkj : j = k := (Nat.succ.inj (Rat.natCast_inj.mp hnumbered)).symm
    rw [hkj] at hj
    cases hcall.symm.trans hj
    exact ⟨n, taken, hget, ⟨hconn, by rw [hraw, hsame]⟩, hdecides⟩
  · change connection.client.calls = [] at hnone
    unfold RpcClient.onMessage
    split
    · simp [hnone]
    · exact hnone

end Linked

/-! ## The daemon and its connections -/

namespace RpcWorld

variable {world next : RpcWorld}

/-- Every connection is linked with the log, and the log with the connections. -/
structure Traced (world : RpcWorld) : Prop where
  linked : Each (Linked world.received) world.connections
  logged : Each (fun _ ↦ Logged) world.received
  known : Each (fun _ taken ↦ taken.conn < world.connections.length) world.received

theorem traced_start : start.Traced := ⟨.nil, .nil, .nil⟩

/-- One connection changes. -/
theorem Traced.onConnection (h : world.Traced) {c : ℕ} {change : Connection → Connection}
    (hchange : ∀ connection, world.connections[c]? = some connection →
      Linked world.received c connection → Linked world.received c (change connection)) :
    (world.onConnection c change).Traced where
  linked := h.linked.modify (fun _ _ _ hlinked ↦ hlinked) hchange
  logged := h.logged
  known := h.known.mono fun _ _ hlt ↦ by
    rw [RpcWorld.onConnection, List.length_modify]
    exact hlt

theorem Traced.turn (h : world.Traced) {c : ℕ} {ready : Connection → Bool}
    {change : Connection → Connection}
    (hchange : ∀ connection, ready connection = true → Linked world.received c connection →
      Linked world.received c (change connection))
    (hturn : world.turn c ready change = some next) : next.Traced := by
  obtain ⟨⟨connection, hconnection, hready⟩, rfl⟩ := turn_cases hturn
  refine h.onConnection fun other hget hlinked ↦ ?_
  rw [hconnection] at hget
  cases hget
  exact hchange connection hready hlinked

theorem Traced.connect (h : world.Traced) (foreign : Bool) :
    ({ world with connections := world.connections ++ [.create foreign] } : RpcWorld).Traced where
  linked := by
    refine h.linked.concat (.create ?_ foreign)
    rw [arrivals, List.map_eq_nil_iff, List.filter_eq_nil_iff]
    intro taken hmem heq
    obtain ⟨_, hlt⟩ := h.known.of_mem hmem
    rw [of_decide_eq_true heq] at hlt
    exact Nat.lt_irrefl _ hlt
  logged := h.logged
  known := h.known.mono fun _ _ hlt ↦ by
    rw [List.length_append]
    exact Nat.lt_of_lt_of_le hlt (Nat.le_add_right _ _)

theorem logged_dispatch (methods : List JsString) (c : ℕ) (raw : Option Json) :
    Logged ⟨c, raw, dispatch methods raw, false, []⟩ where
  fits := by
    cases raw with
    | none => rfl
    | some raw =>
      refine ⟨fun hnotification ↦ ?_, fun hnot hrequest ↦ ?_, fun hnot hrequest ↦ ?_⟩
      · simp [dispatch, hnotification]
      · by_cases hknown : (Drivers.stringOf (raw.field (js "method"))).any (· ∈ methods) = true
        · exact .inr (.inl (by simp [dispatch, hnot, hrequest, hknown]))
        · exact .inl (by simp [dispatch, hnot, hrequest, hknown])
      · simp [dispatch, hnot, hrequest]
  produced := rfl
  done := nofun

theorem arrivals_concat (received : List Received) (taken : Received) (c : ℕ) :
    arrivals (received ++ [taken]) c =
      arrivals received c ++ if taken.conn = c then [taken.raw] else [] := by
  rw [arrivals, List.filter_append, List.map_append]
  by_cases hconn : taken.conn = c <;> simp [arrivals, hconn]

theorem Traced.receive (h : world.Traced) {c : ℕ} (hstep : world.receive c = some next) :
    next.Traced := by
  obtain ⟨connection, raw, rest, hconnection, _, htoServer, rfl⟩ := receive_cases hstep
  have hkept : Kept world.received
      (world.received ++ [⟨c, raw, dispatch world.methods raw, false, []⟩]) := by
    intro n taken hget _
    rw [List.getElem?_append_left (List.getElem?_eq_some_iff.mp hget).1, hget]
  refine ⟨?_, h.logged.concat (logged_dispatch _ _ _), ?_⟩
  · refine h.linked.modify (fun position other hne hlinked ↦ ?_) fun other hget hlinked ↦ ?_
    · apply hlinked.of_received hkept
      rw [arrivals_concat, if_neg (Ne.symm hne), List.append_nil]
    · rw [hconnection] at hget
      cases hget
      have hsent := hlinked.sent
      rw [htoServer] at hsent
      refine ⟨hlinked.client, hlinked.strange, fun hforeign ↦ ?_, ?_, ?_⟩
      · rw [arrivals_concat, if_pos rfl, List.append_assoc]
        exact hsent hforeign
      · exact fun frame hmem id hid ↦ (hlinked.inflight frame hmem id hid).kept hkept
      · exact hlinked.settled.mono fun _ _ hcall hserver ↦ (hcall hserver).kept hkept
  · rw [RpcWorld.onConnection, List.length_modify]
    exact h.known.concat (List.getElem?_eq_some_iff.mp hconnection).1

theorem arrivals_modify {change : Received → Received}
    (hchange : ∀ taken, (change taken).conn = taken.conn ∧ (change taken).raw = taken.raw)
    (received : List Received) (n c : ℕ) : arrivals (received.modify n change) c = arrivals received c := by
  induction received generalizing n with
  | nil => rw [List.modify_nil]
  | cons taken rest ih =>
    cases n with
    | zero =>
      obtain ⟨hconn, hraw⟩ := hchange taken
      rw [List.modify_zero_cons, arrivals, arrivals, List.filter_cons, List.filter_cons, hconn]
      split
      · rw [List.map_cons, List.map_cons, hraw]
      · rfl
    | succ n =>
      have hrest := ih n
      rw [arrivals, arrivals] at hrest
      rw [List.modify_succ_cons, arrivals, arrivals, List.filter_cons, List.filter_cons]
      split
      · rw [List.map_cons, List.map_cons, hrest]
      · exact hrest

/-- The daemon goes on with a frame of its log that it has not answered. -/
theorem Traced.goOn (h : world.Traced) {n : ℕ} {taken : Received} {change : Received → Received}
    (hget : world.received[n]? = some taken) (hopen : taken.answered = false)
    (hchange : ∀ taken, (change taken).conn = taken.conn ∧ (change taken).raw = taken.raw)
    (hlogged : Logged taken → Logged (change taken)) :
    ({ world with received := world.received.modify n change } : RpcWorld).Traced where
  linked := h.linked.mono fun c _ hlinked ↦ by
    refine hlinked.of_received (fun m other hother hanswered ↦ ?_) (arrivals_modify hchange _ n c)
    have hne : n ≠ m := by
      rintro rfl
      rw [hget] at hother
      cases hother
      rw [hopen] at hanswered
      cases hanswered
    exact (List.getElem?_modify_ne _ _ hne).trans hother
  logged := h.logged.modify (fun _ _ _ hother ↦ hother) fun other hother hlog ↦ by
    rw [hget] at hother
    cases hother
    exact hlogged hlog
  known := h.known.modify (fun _ _ _ hlt ↦ hlt) fun other _ hlt ↦ (hchange other).1.symm ▸ hlt

theorem logged_finish {taken : Received} (h : Logged taken) (hwork : taken.work = .running)
    (hopen : taken.answered = false) (outcome : Outcome) : Logged (taken.finish outcome) where
  fits := by
    have hfits := h.fits
    simp only [Received.finish]
    cases hraw : taken.raw with
    | none =>
      rw [hraw, hwork] at hfits
      cases hfits
    | some raw =>
      rw [hraw, hwork] at hfits
      refine ⟨fun hnotification ↦ ?_, fun _ _ ↦ .inr (.inr ⟨outcome, rfl⟩), fun hnot hrequest ↦ ?_⟩
      · cases hfits.1 hnotification
      · cases hfits.2.2 hnot hrequest
  produced := by
    simp only [Received.finish, h.produced, hopen]
    rfl
  done := nofun

theorem logged_respond {taken : Received} (h : Logged taken) (hwork : taken.work ≠ .running)
    (hopen : taken.answered = false) : Logged taken.respond where
  fits := h.fits
  produced := by
    change taken.produced ++ taken.response.toList = taken.response.toList
    rw [h.produced, hopen]
    rfl
  done := fun _ ↦ hwork

theorem Traced.finish (h : world.Traced) {n : ℕ} {outcome : Outcome}
    (hstep : world.finish n outcome = some next) : next.Traced := by
  obtain ⟨taken, hget, hwork, rfl⟩ := finish_cases hstep
  have hopen : taken.answered = false := by
    by_contra hanswered
    exact (h.logged n taken hget).done (by simpa using hanswered) hwork
  exact h.goOn hget hopen (fun _ ↦ ⟨rfl, rfl⟩) fun hlogged ↦ logged_finish hlogged hwork hopen outcome

theorem Traced.respond (h : world.Traced) {n : ℕ} (hstep : world.respond n = some next) :
    next.Traced := by
  obtain ⟨taken, hget, hopen, hwork, rfl⟩ := respond_cases hstep
  have hmarked := @Traced.goOn _ h _ _ Received.respond hget hopen (fun _ ↦ ⟨rfl, rfl⟩)
    fun hlogged ↦ logged_respond hlogged hwork hopen
  refine hmarked.onConnection fun connection _ hlinked ↦ ?_
  cases hresponse : taken.response with
  | none => exact hlinked
  | some frame =>
    refine hlinked.send fun id _ ↦ ⟨n, taken.respond, ?_, rfl, rfl, hresponse⟩
    simp [hget]

theorem Traced.deliver (h : world.Traced) {c : ℕ} (hstep : world.deliver c = some next) :
    next.Traced := by
  obtain ⟨connection, frame, rest, hconnection, _, hframe, rfl⟩ := deliver_cases hstep
  refine h.onConnection fun other hget hlinked ↦ ?_
  rw [hconnection] at hget
  cases hget
  exact hlinked.deliver hframe

/-- Every turn keeps the connections linked with the log. -/
theorem Traced.step (h : world.Traced) {event : RpcEvent} (hstep : world.step event = some next) :
    next.Traced := by
  cases event with
  | register method =>
    simp only [RpcWorld.step] at hstep
    split at hstep
    · cases hstep
    · cases hstep
      exact ⟨h.linked, h.logged, h.known⟩
  | unregister method =>
    cases hstep
    exact ⟨h.linked, h.logged, h.known⟩
  | connect foreign =>
    cases hstep
    exact h.connect foreign
  | call c method params =>
    exact h.turn (fun _ hready hlinked ↦ hlinked.call (by simpa using hready) method params) hstep
  | callThrows c method =>
    exact h.turn (fun _ hready hlinked ↦ hlinked.callThrows (by simpa using hready) method) hstep
  | foreign c raw => exact h.turn (fun _ hready hlinked ↦ hlinked.foreign hready raw) hstep
  | receive c => exact h.receive hstep
  | finish n outcome => exact h.finish hstep
  | respond n => exact h.respond hstep
  | notify c method params =>
    refine h.turn (fun _ _ hlinked ↦ hlinked.send fun id hid ↦ ?_) hstep
    rw [field_notification] at hid
    cases hid
  | deliver c => exact h.deliver hstep
  | timer c k => exact h.turn (fun _ _ hlinked ↦ hlinked.timeOut k) hstep
  | hangUp c | closing c | serverClose c =>
    exact h.turn (fun _ _ hlinked ↦ hlinked.withEnds hlinked.sent hlinked.inflight) hstep
  | clientClose c => exact h.turn (fun _ _ hlinked ↦ hlinked.close) hstep

/-! ### Calls settle once -/

/-- Calls of one connection are settled or added. -/
theorem settlesOnce_of_modify {c : ℕ} {change : Connection → Connection} {event : RpcEvent}
    (hturn : ∀ connection, world.connections[c]? = some connection →
      CallsTurn (fun _ _ ↦ True) connection.client.calls (change connection).client.calls)
    (hnext : next.connections = world.connections.modify c change) :
    world.SettlesOnce event next := by
  intro c' k connection call hconnection hcall hsettled
  rw [hnext, List.getElem?_modify, hconnection]
  by_cases hc : c = c'
  · subst hc
    obtain ⟨call', hcall', hsame⟩ := (hturn connection hconnection).kept hcall hsettled
    exact ⟨change connection, call', by simp, hcall', hsame⟩
  · exact ⟨connection, call, by simp [hc], hcall, rfl⟩

theorem settlesOnce_of_eq {event : RpcEvent} (hnext : next.connections = world.connections) :
    world.SettlesOnce event next :=
  fun _ _ connection call hconnection hcall _ ↦ ⟨connection, call, hnext ▸ hconnection, hcall, rfl⟩

theorem send_client (connection : Connection) (frame : Json) :
    (connection.send frame).client = connection.client := by
  unfold Connection.send
  split <;> rfl

theorem foldl_send_client (frames : List Json) (connection : Connection) :
    (frames.foldl Connection.send connection).client = connection.client := by
  induction frames generalizing connection with
  | nil => rfl
  | cons frame rest ih => rw [List.foldl_cons, ih, send_client]

theorem post_client (raw : Option Json) (connection : Connection) :
    (connection.post raw).client = connection.client := by
  unfold Connection.post
  split <;> rfl

theorem settlesOnce_of_turn {c : ℕ} {ready : Connection → Bool} {change : Connection → Connection}
    {event : RpcEvent} (hturn : ∀ connection, world.connections[c]? = some connection →
      CallsTurn (fun _ _ ↦ True) connection.client.calls (change connection).client.calls)
    (hstep : world.turn c ready change = some next) : world.SettlesOnce event next := by
  obtain ⟨_, rfl⟩ := turn_cases hstep
  exact settlesOnce_of_modify hturn rfl

/-- No turn changes how a call was settled. -/
theorem Traced.settlesOnce (h : world.Traced) {event : RpcEvent} (hstep : world.step event = some next) :
    world.SettlesOnce event next := by
  cases event with
  | register method =>
    simp only [RpcWorld.step] at hstep
    split at hstep
    · cases hstep
    · cases hstep
      exact settlesOnce_of_eq rfl
  | unregister method =>
    cases hstep
    exact settlesOnce_of_eq rfl
  | connect foreign =>
    cases hstep
    exact fun c _ connection call hconnection hcall _ ↦ ⟨connection, call,
      (List.getElem?_append_left (List.getElem?_eq_some_iff.mp hconnection).1).trans hconnection,
      hcall, rfl⟩
  | call c method params =>
    refine settlesOnce_of_turn (fun connection hget ↦ ?_) hstep
    rw [Connection.call, post_client]
    exact (h.linked c connection hget).client.call_turn method params
  | callThrows c method =>
    exact settlesOnce_of_turn
      (fun connection hget ↦ (h.linked c connection hget).client.callThrows_turn method) hstep
  | foreign c raw =>
    refine settlesOnce_of_turn (fun connection _ ↦ ?_) hstep
    rw [post_client]
    exact .refl _
  | receive c =>
    obtain ⟨_, _, rest, _, _, _, rfl⟩ := receive_cases hstep
    refine settlesOnce_of_modify (fun _ _ ↦ ?_) rfl
    exact .refl _
  | finish n outcome =>
    obtain ⟨_, _, _, rfl⟩ := finish_cases hstep
    exact settlesOnce_of_eq rfl
  | respond n =>
    obtain ⟨taken, _, _, _, rfl⟩ := respond_cases hstep
    refine settlesOnce_of_modify (fun connection _ ↦ ?_) rfl
    rw [foldl_send_client]
    exact .refl _
  | notify c method params =>
    refine settlesOnce_of_turn (fun connection _ ↦ ?_) hstep
    rw [send_client]
    exact .refl _
  | deliver c =>
    obtain ⟨_, _, _, _, _, _, rfl⟩ := deliver_cases hstep
    exact settlesOnce_of_modify (fun _ _ ↦ onMessage_turn fun _ _ _ _ _ _ ↦ trivial) rfl
  | timer c k => exact settlesOnce_of_turn (fun _ _ ↦ timeOut_turn _ k) hstep
  | hangUp c | closing c | serverClose c =>
    refine settlesOnce_of_turn (fun _ _ ↦ ?_) hstep
    exact .refl _
  | clientClose c => exact settlesOnce_of_turn (fun _ _ ↦ onClose_turn _) hstep

/-! ### Calls and frames find each other -/

theorem requests_nodup {calls : List Call} (h : Each Numbered calls) :
    ((calls.map Call.request).map some).Nodup := by
  rw [List.map_map, List.nodup_iff_pairwise_ne, List.pairwise_map, List.pairwise_iff_getElem]
  intro j k hj hk hlt heq
  have hfirst := (h j calls[j] (List.getElem?_eq_getElem hj)).2
  have hsecond := (h k calls[k] (List.getElem?_eq_getElem hk)).2
  have hsame : calls[j].request = calls[k].request := Option.some.inj heq
  rw [hsame, hsecond, Option.some.injEq, Json.num.injEq] at hfirst
  have hjk : k = j := Nat.succ.inj (Rat.natCast_inj.mp hfirst)
  omega

/-- A request of a client is in the log at most once. -/
theorem at_unique {received : List Received} {c : ℕ} (h : (arrivals received c).Nodup) {request : Json}
    {n m : ℕ} (hn : At (fun taken ↦ taken.Is c request) n received)
    (hm : At (fun taken ↦ taken.Is c request) m received) : n = m := by
  rw [arrivals, List.nodup_iff_pairwise_ne, List.pairwise_map, List.pairwise_filter,
    List.pairwise_iff_getElem] at h
  have hnot : ∀ j k, At (fun taken ↦ taken.Is c request) j received →
      At (fun taken ↦ taken.Is c request) k received → ¬ j < k := by
    rintro j k ⟨first, hfirst, hconn, hraw⟩ ⟨second, hsecond, hconn', hraw'⟩ hlt
    obtain ⟨hj, rfl⟩ := List.getElem?_eq_some_iff.mp hfirst
    obtain ⟨hk, rfl⟩ := List.getElem?_eq_some_iff.mp hsecond
    exact h j k hj hk hlt (decide_eq_true hconn) (decide_eq_true hconn') (hraw.trans hraw'.symm)
  exact Nat.le_antisymm (Nat.not_lt.mp (hnot m n hm hn)) (Nat.not_lt.mp (hnot n m hn hm))

theorem not_isNotification {raw : Json} (h : isRequest raw = true) : isNotification raw = false := by
  rw [isRequest, Bool.and_eq_true, Option.any_eq_true] at h
  obtain ⟨_, id, hid, _⟩ := h
  simp [isNotification, hid]

/-- The response of a request bears its id. -/
theorem response_id {taken : Received} (hlogged : Logged taken) {raw : Json} (hraw : taken.raw = some raw)
    (hrequest : isRequest raw = true) (hwork : taken.work ≠ .running) :
    ∃ response, taken.response = some response ∧
      response.field (js "id") = raw.field (js "id") := by
  have hfits := hlogged.fits
  rw [hraw] at hfits
  have hid : raw.field (js "id") = some taken.idOf := by
    rw [isRequest, Bool.and_eq_true, Option.any_eq_true] at hrequest
    obtain ⟨_, id, hid, _⟩ := hrequest
    rw [Received.idOf, hraw, Option.bind_some, hid]
    rfl
  rw [hid]
  rcases hfits.2.1 (not_isNotification hrequest) hrequest with hunknown | hrunning | ⟨outcome, hdone⟩
  · refine ⟨_, by rw [Received.response, hunknown], ?_⟩
    exact field_failure _ _ _ _
  · exact absurd hrunning hwork
  · refine ⟨_, by rw [Received.response, hdone], ?_⟩
    exact field_response outcome _

theorem Traced.settled (h : world.Traced) {c k : ℕ} {connection : Connection} {call : Call}
    (hconnection : world.connections[c]? = some connection)
    (hcall : connection.client.calls[k]? = some call) (hserver : FromServer call.promise.fate) :
    ∃ n received, world.received[n]? = some received ∧ received.Is c call.request ∧
      received.Decides call.promise.fate ∧
      ∀ other, At (fun received ↦ received.Is c call.request) other world.received → other = n := by
  have hlinked := h.linked c connection hconnection
  obtain ⟨n, taken, hget, his, hdecides⟩ := hlinked.settled k call hcall hserver
  have hforeign : connection.foreign = false := by
    by_contra hnot
    rw [hlinked.strange (by simpa using hnot)] at hcall
    cases hcall
  have hnodup : (arrivals world.received c).Nodup :=
    ((List.sublist_append_left _ _).trans (hlinked.sent hforeign)).nodup
      (requests_nodup hlinked.client.numbered)
  exact ⟨n, taken, hget, his, hdecides, fun other hother ↦ at_unique hnodup hother ⟨taken, hget, his⟩⟩

theorem Traced.correlated (h : world.Traced) : world.Correlated where
  settled := fun _ _ _ _ hconnection hcall hserver ↦ h.settled hconnection hcall hserver
  answered := by
    intro n taken raw hget hraw hrequest
    have hlogged := h.logged n taken hget
    split
    · rename_i hanswered
      obtain ⟨response, hresponse, hid⟩ :=
        response_id hlogged hraw hrequest (hlogged.done hanswered)
      refine ⟨response, ?_, hid⟩
      rw [hlogged.produced, if_pos hanswered, hresponse]
      rfl
    · rename_i hopen
      refine ⟨by rw [hlogged.produced, if_neg hopen], ?_⟩
      by_cases hwork : taken.work = .running
      · exact .inl hwork
      · refine .inr ?_
        simp [RpcWorld.step, RpcWorld.respond, hget, hopen, hwork]
  silent := by
    intro n taken raw hget hraw hnotification
    have hlogged := h.logged n taken hget
    have hfits := hlogged.fits
    rw [hraw] at hfits
    have hresponse : taken.response = none := by
      rw [Received.response, hfits.1 hnotification]
    rw [hlogged.produced, hresponse]
    exact ite_self _

/-- In every run no call changes how it was settled, and calls, handlers and responses find each
other. -/
theorem calls_correlated (schedule : List RpcEvent) :
    Along step SettlesOnce start schedule ∧ Throughout step Correlated start schedule := by
  have hfree := @stepsMeet_true _ _ step start schedule
  have hkeep : ∀ world event next, Traced world → True → step world event = some next →
      Traced next ∧ SettlesOnce world event next :=
    fun _ _ _ htraced _ hstep ↦ ⟨htraced.step hstep, htraced.settlesOnce hstep⟩
  refine ⟨along_of_invariant hkeep traced_start hfree, ?_⟩
  have htraced : Throughout step Traced start schedule :=
    throughout_of_invariant (fun _ _ _ h _ hstep ↦ Traced.step h hstep) traced_start hfree
  exact htraced.mono fun _ ↦ Traced.correlated

-- The second call is answered first.
example : ((run step start [.register (js "status"), .connect false, .call 0 (js "status") none,
    .call 0 (js "stop") none, .receive 0, .receive 0, .respond 1, .deliver 0,
    .finish 0 (.returned none), .respond 0, .deliver 0]).bind fun world ↦
      world.connections[0]?.map fun connection ↦
        connection.client.calls.map fun call ↦ call.promise.fate) =
    some [.fulfilled (some .null), unknownMethodFate (js "stop")] := by decide +kernel

end RpcWorld

end Cordyceps.Transport

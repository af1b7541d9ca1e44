import Lolipay.Coordinator.Gateway

namespace Lolipay.Coordinator.Rooms

open Lolipay.Ledger.Runs Lolipay.Async.Process
open Lolipay.Coordinator.Gateway
open Lolipay.Coordinator.Orders (OrderId)
open Lolipay.Coordinator.Wallets (WalletLinkStatus)

/-- What happens to a gateway whose handlers run one at a time. The environment
says which queries of a handler fail. -/
inductive Event where
  | outside (m : Move)
  | connect (sid : SocketId) (token : Option Payload) (fails : Effect → Bool)
  | joinOrder (sid : SocketId) (orderId : Option OrderId) (fails : Effect → Bool)

def under (fails : Effect → Bool) (e : Effect) (s : State) : State × Reply e :=
  effect e (fails e) s

def handled (y : Settings) (s : State) : Event → List Effect × State × Option Unit
  | .outside m => ([], moved s m, some ())
  | .connect sid token fails => complete (under fails) (handleConnection y sid token) s
  | .joinOrder sid orderId fails => complete (under fails) (handleJoinOrder y sid orderId) s

def admits (s : State) : Event → Prop
  | .outside m => moves s m
  | .connect sid _ _ => s.sockets sid = none
  | .joinOrder sid _ _ => s.connected sid

instance (s : State) : (e : Event) → Decidable (admits s e)
  | .outside m => inferInstanceAs (Decidable (moves s m))
  | .connect sid _ _ => inferInstanceAs (Decidable (s.sockets sid = none))
  | .joinOrder sid _ _ => inferInstanceAs (Decidable (s.connected sid = true))

def machine (y : Settings) : Machine State Event (List Effect) where
  admits := admits
  next s e := (handled y s e).2.1
  out s e := (handled y s e).1

instance (y : Settings) (s : State) (e : Event) : Decidable ((machine y).admits s e) :=
  inferInstanceAs (Decidable (admits s e))

/-- What `resolveRole` returns while nobody writes. -/
def roleIn (y : Settings) (fails : Effect → Bool) (s : State) (address : String) (cls : TokenClass) :
    Except Refusal Role :=
  if fails (.findLink (y.accountOf address)) then .error .unavailable
  else if s.links (y.accountOf address) ≠ some .active then .error .unauthorized
  else if cls ∉ mayPromote then .ok .user
  else if address ∈ y.adminAddresses then .ok .admin
  else if fails (.findLp address) then .error .unavailable
  else if (s.lps address).map (·.status) = some .approved then .ok .lp
  else .ok .user

/-- A message that brought its socket into the room of an order did so with a
role that opens the order, and `resolveRole` returned that role meanwhile. -/
def Follows (e : Entry State Event (List Effect)) : Prop :=
  ∀ sid orderId fails, e.act = .joinOrder sid orderId fails →
    ∀ id, Effect.join sid (.order id) ∈ e.out →
      ∃ data role order, e.pre.data sid = some data ∧ Effect.resolved sid role ∈ e.out ∧
        e.pre.orders id = some order ∧ authorized { data with role := role } order

/-- The condition on a message: if it is within the rate, and the queries
succeed, then the role on record for its socket opens the order only if the
role in the database does. -/
def Heeds (y : Settings) (s : State) (e : Event) : Prop :=
  ∀ sid id fails data role order, e = .joinOrder sid (some id) fails →
    s.data sid = some data → (checkJoinRate s sid).1 = true →
    roleIn y fails s data.address data.cls = .ok role →
    fails (.findOrder id) = false → s.orders id = some order →
    authorized data order → authorized { data with role := role } order

/-- The data of a socket that is connected has the role that was last resolved
for it, and the socket is in the rooms of that role and of no other. -/
def Agrees (socket : Option Socket) (last : Option Role) : Prop :=
  ∀ k ∈ socket, k.connected = true →
    ∃ data, k.data = some data ∧ last = some data.role ∧
      (Room.adminOrders ∈ k.rooms ↔ data.role = .admin) ∧
      (Room.lpAssignments ∈ k.rooms ↔ data.role = .lp)

def Agree (s : State) : Prop := ∀ sid, Agrees (s.sockets sid) (s.lastRole sid)

variable {y : Settings} {fails : Effect → Bool} {s : State} {sid t : SocketId}

theorem agrees_of_not_connected {last : Option Role} (h : s.connected sid = false) :
    Agrees (s.sockets sid) last := by
  intro k hk hc
  rw [Option.mem_def] at hk
  simp [State.connected, hk, hc] at h

def about : Effect → Option SocketId
  | .accept sid _ | .resolved sid _ | .refuse sid _ | .attach sid _ _ | .join sid _ | .leave sid _
  | .beginJoin sid | .setData sid _ | .disconnect sid | .emitError sid _ => some sid
  | .findLink _ | .findLp _ | .online _ | .offline _ | .heartbeat _ | .findOrder _ => none

def Own (sid : SocketId) (e : Effect) : Prop := about e = some sid ∨ about e = none

theorem sockets_accept_of_ne (token : Option Payload) (ht : t ≠ sid) :
    (accept s sid token).1.sockets t = s.sockets t ∧
      (accept s sid token).1.lastRole t = s.lastRole t := by
  obtain ⟨attempts, h | ⟨a, cls, expiresAt, -, -, h⟩⟩ := accept_cases s sid token
  · simp [h, sockets_disconnect_of_ne, entered, ht]
  · simp [h, reserve, entered, ht]

theorem sockets_attach_of_ne (data : SocketData) (expiresAt : ℤ) (ht : t ≠ sid) :
    (attach s sid data expiresAt).1.sockets t = s.sockets t ∧
      (attach s sid data expiresAt).1.lastRole t = s.lastRole t := by
  obtain ⟨-, h⟩ | ⟨-, timers, h⟩ := attach_cases s sid data expiresAt
  · refine ⟨?_, ?_⟩
    · simp [h, sockets_disconnect_of_ne, setData, sockets_updateSocket, ht]
    · simp [h, setData, State.updateSocket]
  · refine ⟨?_, ?_⟩
    · simp [h, join, timed, setData, sockets_updateSocket, ht]
    · simp [h, join, timed, setData, State.updateSocket]

theorem effect_frame {e : Effect} {b : Bool} (h : Own sid e) (ht : t ≠ sid) :
    (effect e b s).1.sockets t = s.sockets t ∧ (effect e b s).1.lastRole t = s.lastRole t := by
  have hne (u : SocketId) (hu : about e = some u) : t ≠ u := by
    rw [Own, hu] at h
    obtain h | h := h
    · rw [Option.some.inj h]
      exact ht
    · cases h
  cases e with
  | accept u token => exact sockets_accept_of_ne token (hne u rfl)
  | attach u data expiresAt => exact sockets_attach_of_ne data expiresAt (hne u rfl)
  | resolved u role => exact ⟨rfl, by simp [effect, hne u rfl]⟩
  | refuse u a =>
    exact ⟨by simp [effect, sockets_disconnect_of_ne (hne u rfl)], by simp [effect]⟩
  | disconnect u =>
    exact ⟨by simp [effect, sockets_disconnect_of_ne (hne u rfl)], by simp [effect]⟩
  | join u room => exact ⟨by simp [effect, join, sockets_updateSocket, hne u rfl], rfl⟩
  | leave u room => exact ⟨by simp [effect, leave, sockets_updateSocket, hne u rfl], rfl⟩
  | setData u data => exact ⟨by simp [effect, setData, sockets_updateSocket, hne u rfl], rfl⟩
  | beginJoin u =>
    simp only [effect, beginJoin]
    split
    next => exact ⟨rfl, rfl⟩
    next => split <;> exact ⟨rfl, rfl⟩
  | heartbeat a => cases b <;> exact ⟨rfl, rfl⟩
  | findLink | findLp | online | offline | emitError | findOrder => exact ⟨rfl, rfl⟩

theorem own_resolveRole {address : String} {cls : TokenClass} :
    Every (Own sid) (resolveRole y sid address cls) :=
  every_resolveRole (fun _ => .inr rfl) (fun _ => .inr rfl) (fun _ => .inl rfl)

theorem own_handleConnection (token : Option Payload) :
    Every (Own sid) (handleConnection y sid token) := by
  apply (every_one (.inl rfl)).bind
  intro claims
  cases claims with
  | none => trivial
  | some claims =>
    apply own_resolveRole.bind
    intro result
    cases result with
    | error => exact every_one (.inl rfl)
    | ok role =>
      refine (every_one (.inl rfl)).bind fun attached => every_onlyIf ?_
      exact every_enterRooms (.inl rfl) (.inl rfl) (.inr rfl) (.inr rfl)

/-- A change of role is none of the two things that tell where a message ends. -/
def Tame (sid : SocketId) (e : Effect) : Prop :=
  Own sid e ∧ (∀ id, e ≠ .join sid (.order id)) ∧ ∀ role, e ≠ .resolved sid role

theorem tame_applyRoleChange (data : SocketData) (role : Role) :
    Every (Tame sid) (applyRoleChange sid data role) := by
  apply every_applyRoleChange
  · exact fun _ => ⟨.inl rfl, by simp, by simp⟩
  · exact ⟨.inr rfl, by simp, by simp⟩
  · exact ⟨.inl rfl, by simp, by simp⟩
  · exact ⟨.inl rfl, by simp, by simp⟩
  · exact ⟨.inr rfl, by simp, by simp⟩
  · exact ⟨.inl rfl, by simp, by simp⟩

theorem own_handleJoinOrder (orderId : Option OrderId) :
    Every (Own sid) (handleJoinOrder y sid orderId) := by
  apply (every_one (.inl rfl)).bind
  intro data
  cases data with
  | none => trivial
  | some data =>
    apply own_resolveRole.bind
    intro result
    cases result with
    | error refusal => cases refusal <;> exact every_one (.inl rfl)
    | ok role =>
      refine (every_onlyIf ((tame_applyRoleChange data role).mono fun _ h => h.1)).bind fun _ => ?_
      exact every_joinOrder (fun _ => .inl rfl) (fun _ => .inr rfl) (fun _ => .inl rfl)

theorem complete_frame {p : Handler Unit} (fails : Effect → Bool) (hp : Every (Own sid) p)
    (ht : t ≠ sid) :
    (complete (under fails) p s).2.1.sockets t = s.sockets t ∧
      (complete (under fails) p s).2.1.lastRole t = s.lastRole t := by
  induction p generalizing s with
  | pure | fail => exact ⟨rfl, rfl⟩
  | step e k ih =>
    obtain ⟨hsockets, hrole⟩ := ih (under fails e s).2 (hp.2 _) (s := (under fails e s).1)
    obtain ⟨hsockets', hrole'⟩ := effect_frame (s := s) (b := fails e) hp.1 ht
    exact ⟨hsockets.trans hsockets', hrole.trans hrole'⟩

def remembered (s : State) (sid : SocketId) (role : Role) : State :=
  { s with lastRole := Function.update s.lastRole sid (some role) }

theorem resolveRole_completes (fails : Effect → Bool) (sid : SocketId) (address : String)
    (cls : TokenClass) : ∃ es,
    (∀ room, Effect.join sid room ∉ es) ∧
    ((∃ refusal, roleIn y fails s address cls = .error refusal ∧
        complete (under fails) (resolveRole y sid address cls) s = (es, s, some (.error refusal))) ∨
      ∃ role, roleIn y fails s address cls = .ok role ∧ (∀ r, Effect.resolved sid r ∈ es ↔ r = role) ∧
        complete (under fails) (resolveRole y sid address cls) s =
          (es, remembered s sid role, some (.ok role))) := by
  unfold roleIn
  by_cases hlink : fails (.findLink (y.accountOf address)) = true
  · refine ⟨[.findLink (y.accountOf address)], by simp, .inl ⟨.unavailable, by simp [hlink], ?_⟩⟩
    simp [resolveRole, complete, under, effect, hlink]
  by_cases hactive : s.links (y.accountOf address) = some .active
  swap
  · refine ⟨[.findLink (y.accountOf address)], by simp,
      .inl ⟨.unauthorized, by simp [hlink, hactive], ?_⟩⟩
    simp [resolveRole, complete, under, effect, hlink, hactive]
  have hlink' : under fails (.findLink (y.accountOf address)) s = (s, some (some .active)) := by
    simp [under, effect, hlink, hactive]
  have hnoted (role : Role) : under fails (.resolved sid role) s = (remembered s sid role, ()) := rfl
  by_cases hcls : cls ∈ mayPromote
  swap
  · refine ⟨[.findLink (y.accountOf address), .resolved sid .user], by simp,
      .inr ⟨.user, by simp [hlink, hactive, hcls], by simp, ?_⟩⟩
    simp [resolveRole, returns, complete, hlink', hnoted, hcls]
  by_cases hadmin : address ∈ y.adminAddresses
  · refine ⟨[.findLink (y.accountOf address), .resolved sid .admin], by simp,
      .inr ⟨.admin, by simp [hlink, hactive, hcls, hadmin], by simp, ?_⟩⟩
    simp [resolveRole, returns, complete, hlink', hnoted, hcls, hadmin]
  by_cases hlp : fails (.findLp address) = true
  · refine ⟨[.findLink (y.accountOf address), .findLp address], by simp,
      .inl ⟨.unavailable, by simp [hlink, hactive, hcls, hadmin, hlp], ?_⟩⟩
    have hlp' : under fails (.findLp address) s = (s, none) := by simp [under, effect, hlp]
    simp [resolveRole, complete, hlink', hlp', hcls, hadmin]
  have hlp' : under fails (.findLp address) s = (s, some ((s.lps address).map (·.status))) := by
    simp [under, effect, hlp]
  generalize (s.lps address).map (·.status) = status at hlp'
  by_cases happroved : status = some .approved
  · refine ⟨[.findLink (y.accountOf address), .findLp address, .resolved sid .lp], by simp,
      .inr ⟨.lp, by simp [hlink, hactive, hcls, hadmin, hlp, happroved], by simp, ?_⟩⟩
    simp [resolveRole, returns, complete, hlink', hlp', hnoted, hcls, hadmin, happroved]
  · refine ⟨[.findLink (y.accountOf address), .findLp address, .resolved sid .user], by simp,
      .inr ⟨.user, by simp [hlink, hactive, hcls, hadmin, hlp, happroved], by simp, ?_⟩⟩
    simp [resolveRole, returns, complete, hlink', hlp', hnoted, hcls, hadmin, happroved]

/-- Where one socket stands, with the role last resolved for it. -/
structure Stands (s : State) (sid : SocketId) (k : Socket) (last : Option Role) : Prop where
  socket : s.sockets sid = some k
  role : s.lastRole sid = last

variable {k : Socket} {last : Option Role}

theorem Stands.join (h : Stands s sid k last) (hc : k.connected = true) (room : Room) :
    Stands (join s sid room) sid { k with rooms := insert room k.rooms } last :=
  ⟨by simp [Gateway.join, sockets_updateSocket, h.socket, hc], h.role⟩

theorem Stands.leave (h : Stands s sid k last) (room : Room) :
    Stands (leave s sid room) sid { k with rooms := k.rooms.erase room } last :=
  ⟨by simp [Gateway.leave, sockets_updateSocket, h.socket], h.role⟩

theorem Stands.setData (h : Stands s sid k last) (data : SocketData) :
    Stands (setData s sid data) sid { k with data := some data } last :=
  ⟨by simp [Gateway.setData, sockets_updateSocket, h.socket], h.role⟩

theorem Stands.online (h : Stands s sid k last) (address : String) :
    Stands { s with lpAddressesOnline := insert address s.lpAddressesOnline } sid k last :=
  ⟨h.socket, h.role⟩

theorem Stands.offline (h : Stands s sid k last) (address : String) :
    Stands (offline s address) sid k last :=
  ⟨h.socket, h.role⟩

theorem Stands.remembered (h : Stands s sid k last) (role : Role) :
    Stands (remembered s sid role) sid k (some role) :=
  ⟨h.socket, by simp [Rooms.remembered]⟩

theorem Stands.heartbeat (h : Stands s sid k last) (fails : Effect → Bool) (address : String) :
    Stands (under fails (.heartbeat address) s).1 sid k last := by
  simp only [under, effect]
  split <;> exact ⟨h.socket, h.role⟩

theorem Stands.agrees (h : Stands s sid k last)
    (hk : k.connected = true → ∃ data, k.data = some data ∧ last = some data.role ∧
      (Room.adminOrders ∈ k.rooms ↔ data.role = .admin) ∧
      (Room.lpAssignments ∈ k.rooms ↔ data.role = .lp)) :
    Agrees (s.sockets sid) (s.lastRole sid) := by
  rw [h.socket, h.role]
  intro k' hk' hc
  obtain rfl : k = k' := by simpa using hk'
  exact hk hc

theorem complete_issue (e : Effect) {α : Type} (f : Reply e → Handler α) :
    complete (under fails) (issue e >>= f) s =
      (e :: (complete (under fails) (f (under fails e s).2) (under fails e s).1).1,
        (complete (under fails) (f (under fails e s).2) (under fails e s).1).2) := rfl

theorem enter_agrees {address : String} {cls : TokenClass} {role : Role}
    (h : Stands s sid k (some role)) (hc : k.connected = true)
    (hdata : k.data = some ⟨address, role, cls⟩) (hrooms : k.rooms = {.user address}) :
    Agrees ((complete (under fails) (enterRooms sid address role) s).2.1.sockets sid)
      ((complete (under fails) (enterRooms sid address role) s).2.1.lastRole sid) := by
  cases role with
  | admin =>
    refine (h.join hc .adminOrders).agrees fun _ => ⟨_, hdata, rfl, ?_, ?_⟩ <;> simp [hrooms]
  | user => exact h.agrees fun _ => ⟨_, hdata, rfl, by simp [hrooms], by simp [hrooms]⟩
  | lp =>
    have hjoin := h.join hc .lpAssignments
    have honline : Stands (under fails (.online address) (join s sid .lpAssignments)).1 sid _ _ :=
      ⟨hjoin.socket, hjoin.role⟩
    refine (honline.heartbeat fails address).agrees fun _ => ⟨_, hdata, rfl, ?_, ?_⟩ <;>
      simp [hrooms]

theorem connect_agrees (token : Option Payload) :
    Agrees ((complete (under fails) (handleConnection y sid token) s).2.1.sockets sid)
      ((complete (under fails) (handleConnection y sid token) s).2.1.lastRole sid) := by
  unfold handleConnection
  rw [complete_issue]
  obtain ⟨attempts, h | ⟨address, cls, expiresAt, -, -, h⟩⟩ := accept_cases s sid token
  · simp only [under, effect, h]
    exact agrees_of_not_connected connected_disconnect
  simp only [under, effect, h]
  have hstands : Stands (reserve (entered s sid token attempts) sid address) sid
      ⟨token, true, none, ∅⟩ (s.lastRole sid) := ⟨by simp [reserve, entered], rfl⟩
  generalize reserve (entered s sid token attempts) sid address = u at hstands
  obtain ⟨es, -, ⟨refusal, -, hes⟩ | ⟨role, -, -, hes⟩⟩ :=
    resolveRole_completes (y := y) (s := u) fails sid address cls
  · rw [complete_bind hes]
    exact agrees_of_not_connected connected_disconnect
  rw [complete_bind hes]
  have hknown := (hstands.remembered role).setData ⟨address, role, cls⟩
  generalize remembered u sid role = v at hknown ⊢
  change Agrees ((complete (under fails) (onlyIf (attach v sid ⟨address, role, cls⟩ expiresAt).2
      (enterRooms sid address role)) (attach v sid ⟨address, role, cls⟩ expiresAt).1).2.1.sockets sid)
    ((complete (under fails) (onlyIf (attach v sid ⟨address, role, cls⟩ expiresAt).2
      (enterRooms sid address role)) (attach v sid ⟨address, role, cls⟩ expiresAt).1).2.1.lastRole sid)
  obtain ⟨-, h⟩ | ⟨-, timers, h⟩ := attach_cases v sid ⟨address, role, cls⟩ expiresAt
  · rw [h]
    exact agrees_of_not_connected connected_disconnect
  · rw [h]
    have htimed : Stands (timed (setData v sid ⟨address, role, cls⟩) timers) sid
        ⟨token, true, some ⟨address, role, cls⟩, ∅⟩ (some role) := ⟨hknown.socket, hknown.role⟩
    exact enter_agrees (htimed.join rfl _) rfl rfl rfl

theorem applyRoleChange_completes {data : SocketData} (fails : Effect → Bool) (role : Role)
    (h : Stands s sid k last) (hc : k.connected = true) (hadmin : Room.adminOrders ∈ k.rooms ↔ data.role = .admin)
    (hlp : Room.lpAssignments ∈ k.rooms ↔ data.role = .lp) :
    ∃ u rooms, (complete (under fails) (applyRoleChange sid data role) s).2 = (u, some ()) ∧
      u.orders = s.orders ∧
      Stands u sid { k with data := some { data with role := role }, rooms := rooms } last ∧
      (Room.adminOrders ∈ rooms ↔ role = .admin) ∧ (Room.lpAssignments ∈ rooms ↔ role = .lp) := by
  obtain ⟨address, old, cls⟩ := data
  cases old with
  | admin =>
    have hleft := h.leave .adminOrders
    cases role with
    | admin =>
      exact ⟨_, _, rfl, rfl, (hleft.join hc .adminOrders).setData _, by simp, by simpa using hlp⟩
    | lp =>
      have hjoined := (hleft.join hc .lpAssignments).online address
      exact ⟨_, _, rfl, rfl, hjoined.setData _, by simp, by simp⟩
    | user => exact ⟨_, _, rfl, rfl, hleft.setData _, by simp, by simpa using hlp⟩
  | lp =>
    have hleft := (h.leave .lpAssignments).offline address
    cases role with
    | admin =>
      exact ⟨_, _, rfl, rfl, (hleft.join hc .adminOrders).setData _, by simp, by simp⟩
    | lp =>
      have hjoined := (hleft.join hc .lpAssignments).online address
      exact ⟨_, _, rfl, rfl, hjoined.setData _, by simpa using hadmin, by simp⟩
    | user => exact ⟨_, _, rfl, rfl, hleft.setData _, by simpa using hadmin, by simp⟩
  | user =>
    cases role with
    | admin =>
      exact ⟨_, _, rfl, rfl, (h.join hc .adminOrders).setData _, by simp, by simpa using hlp⟩
    | lp =>
      have hjoined := (h.join hc .lpAssignments).online address
      exact ⟨_, _, rfl, rfl, hjoined.setData _, by simpa using hadmin, by simp⟩
    | user => exact ⟨_, _, rfl, rfl, h.setData _, by simpa using hadmin, by simpa using hlp⟩

theorem joinOrder_fails {data : SocketData} {id : OrderId} (hf : fails (.findOrder id) = true) :
    complete (under fails) (joinOrder sid data (some id)) s = ([.findOrder id], s, none) := by
  have hreply : under fails (.findOrder id) s = (s, none) := by simp [under, effect, hf]
  simp [joinOrder, complete, hreply]

theorem joinOrder_opens {data : SocketData} {id : OrderId} {order : OrderRow}
    (hf : fails (.findOrder id) = false) (horder : s.orders id = some order)
    (hauth : authorized data order) :
    complete (under fails) (joinOrder sid data (some id)) s =
      ([.findOrder id, .join sid (.order id)], join s sid (.order id), some ()) := by
  have hreply : under fails (.findOrder id) s = (s, some (some order)) := by
    simp [under, effect, hf, horder]
  simp only [joinOrder, complete, hreply, if_pos hauth]
  rfl

theorem joinOrder_forbids {data : SocketData} {id : OrderId} (hf : fails (.findOrder id) = false)
    (hno : ∀ order, s.orders id = some order → ¬ authorized data order) :
    complete (under fails) (joinOrder sid data (some id)) s =
      ([.findOrder id, .emitError sid (.forbidden id)],
        { s with emitted := s.emitted ++ [(sid, .forbidden id)] }, some ()) := by
  have hreply : under fails (.findOrder id) s = (s, some (s.orders id)) := by
    simp [under, effect, hf]
  cases horder : s.orders id with
  | none =>
    simp only [joinOrder, complete, hreply, horder]
    rfl
  | some order =>
    simp only [joinOrder, complete, hreply, horder, if_neg (hno order horder)]
    rfl

theorem joinOrder_ends (fails : Effect → Bool) (data : SocketData) (orderId : Option OrderId)
    (h : Stands s sid k last) (hc : k.connected = true) : ∃ es u result rooms,
    complete (under fails) (joinOrder sid data orderId) s = (es, u, result) ∧
    Stands u sid { k with rooms := rooms } last ∧
    (Room.adminOrders ∈ rooms ↔ Room.adminOrders ∈ k.rooms) ∧
    (Room.lpAssignments ∈ rooms ↔ Room.lpAssignments ∈ k.rooms) ∧
    (∀ role, Effect.resolved sid role ∉ es) ∧
    ∀ id, Effect.join sid (.order id) ∈ es ↔
      orderId = some id ∧ fails (.findOrder id) = false ∧
        ∃ order, s.orders id = some order ∧ authorized data order := by
  cases orderId with
  | none => exact ⟨[.emitError sid .invalidOrderId], _, _, k.rooms, rfl, ⟨h.socket, h.role⟩, .rfl, .rfl,
      by simp, by simp⟩
  | some id =>
    by_cases hf : fails (.findOrder id) = true
    · refine ⟨_, _, _, k.rooms, joinOrder_fails hf, h, .rfl, .rfl, by simp, fun id' => ?_⟩
      grind
    · have hf' : fails (.findOrder id) = false := by simpa using hf
      by_cases hopen : ∃ order, s.orders id = some order ∧ authorized data order
      · obtain ⟨order, horder, hauth⟩ := hopen
        refine ⟨_, _, _, _, joinOrder_opens hf' horder hauth, h.join hc (.order id), by simp, by simp,
          by simp, fun id' => ?_⟩
        grind
      · have hno (order : OrderRow) (horder : s.orders id = some order) : ¬ authorized data order :=
          fun hauth => hopen ⟨order, horder, hauth⟩
        refine ⟨_, _, _, k.rooms, joinOrder_forbids hf' hno, ⟨h.socket, h.role⟩, .rfl, .rfl, by simp,
          fun id' => ?_⟩
        grind

/-- The stretches after `resolveRole`: the change of role, if there is one, and
the end of the message. -/
theorem afterRole_ends {data : SocketData} {role : Role} (fails : Effect → Bool)
    (orderId : Option OrderId) (h : Stands s sid k (some role)) (hc : k.connected = true) (hdata : k.data = some data)
    (hadmin : Room.adminOrders ∈ k.rooms ↔ data.role = .admin)
    (hlp : Room.lpAssignments ∈ k.rooms ↔ data.role = .lp) : ∃ es u result,
    complete (under fails) (finishJoinOrder sid data orderId (.ok role)) s = (es, u, result) ∧
    Agrees (u.sockets sid) (u.lastRole sid) ∧ (∀ r, Effect.resolved sid r ∉ es) ∧
    ∀ id, Effect.join sid (.order id) ∈ es ↔
      orderId = some id ∧ fails (.findOrder id) = false ∧
        ∃ order, s.orders id = some order ∧ authorized data order := by
  by_cases hrole : role = data.role
  · obtain ⟨es, u, result, rooms, hends, hu, hadmin', hlp', hres, hjoin⟩ :=
      joinOrder_ends fails data orderId h hc
    refine ⟨es, u, result, ?_, ?_, hres, hjoin⟩
    · rw [finishJoinOrder, onlyIf, if_neg (not_not.mpr hrole)]
      exact hends
    · exact hu.agrees fun _ => ⟨data, hdata, congrArg some hrole, hadmin'.trans hadmin, hlp'.trans hlp⟩
  · obtain ⟨v, rooms, hchange, horders, hv, hadmin', hlp'⟩ :=
      applyRoleChange_completes fails role h hc hadmin hlp
    obtain ⟨es, u, result, rooms', hends, hu, hadmin'', hlp'', hres, hjoin⟩ :=
      joinOrder_ends fails data orderId hv hc
    have htame : ∀ e ∈ (complete (under fails) (applyRoleChange sid data role) s).1, Tame sid e :=
      (tame_applyRoleChange data role).of_complete
    refine ⟨(complete (under fails) (applyRoleChange sid data role) s).1 ++ es, u, result, ?_, ?_, ?_, ?_⟩
    · rw [finishJoinOrder, onlyIf, if_pos hrole, complete_bind (Prod.ext rfl hchange), hends]
    · exact hu.agrees fun _ => ⟨_, rfl, rfl, hadmin''.trans hadmin', hlp''.trans hlp'⟩
    · intro r hr
      obtain hr | hr := List.mem_append.mp hr
      · exact (htame _ hr).2.2 r rfl
      · exact hres r hr
    · intro id
      rw [List.mem_append, ← horders, ← hjoin id]
      exact or_iff_right fun hmem => (htame _ hmem).2.1 id rfl

/-- A whole message. It goes by the data from before it, and by the role in the
database only as far as the rooms of the roles are concerned. -/
theorem message_ends {data : SocketData} (fails : Effect → Bool) (orderId : Option OrderId)
    (h : Stands s sid k (some data.role)) (hc : k.connected = true) (hdata : k.data = some data)
    (hadmin : Room.adminOrders ∈ k.rooms ↔ data.role = .admin)
    (hlp : Room.lpAssignments ∈ k.rooms ↔ data.role = .lp) : ∃ es u result,
    complete (under fails) (handleJoinOrder y sid orderId) s = (es, u, result) ∧
    Agrees (u.sockets sid) (u.lastRole sid) ∧
    ∀ id, (Effect.join sid (.order id) ∈ es ↔
        (checkJoinRate s sid).1 = true ∧
        (∃ role, roleIn y fails s data.address data.cls = .ok role) ∧
        orderId = some id ∧ fails (.findOrder id) = false ∧
        ∃ order, s.orders id = some order ∧ authorized data order) ∧
      (Effect.join sid (.order id) ∈ es → ∀ role, Effect.resolved sid role ∈ es ↔
        roleIn y fails s data.address data.cls = .ok role) := by
  have hsame : Agrees (s.sockets sid) (s.lastRole sid) := h.agrees fun _ => ⟨data, hdata, rfl, hadmin, hlp⟩
  have hfound : s.data sid = some data := by simp [State.data, h.socket, hdata]
  unfold handleJoinOrder
  rw [complete_issue]
  by_cases hrate : (checkJoinRate s sid).1 = true
  swap
  · have hbegin : under fails (.beginJoin sid) s =
        ({ (checkJoinRate s sid).2 with emitted := s.emitted ++ [(sid, .rateLimited)] }, none) := by
      simp only [under, effect, beginJoin, hfound, if_neg hrate]
      rfl
    rw [hbegin]
    exact ⟨_, _, _, rfl, hsame, fun id => by simp [complete, hrate]⟩
  have hbegin : under fails (.beginJoin sid) s = ((checkJoinRate s sid).2, some data) := by
    simp only [under, effect, beginJoin, hfound, if_pos hrate]
  rw [hbegin]
  have hstands : Stands (checkJoinRate s sid).2 sid k (some data.role) := ⟨h.socket, h.role⟩
  have hroleIn : roleIn y fails (checkJoinRate s sid).2 data.address data.cls =
    roleIn y fails s data.address data.cls := rfl
  have horders : (checkJoinRate s sid).2.orders = s.orders := rfl
  generalize (checkJoinRate s sid).2 = v at hstands hroleIn horders
  obtain ⟨es, hes, ⟨refusal, hr, hends⟩ | ⟨role, hr, hresolved, hends⟩⟩ :=
    resolveRole_completes (y := y) (s := v) fails sid data.address data.cls
  · dsimp only
    rw [complete_bind hends]
    rw [hroleIn] at hr
    cases refusal with
    | unauthorized =>
      refine ⟨_, _, _, rfl, agrees_of_not_connected connected_disconnect, fun id => ?_⟩
      simp [hr, hes, finishJoinOrder, issue, complete]
    | unavailable =>
      have hv : Agrees (v.sockets sid) (v.lastRole sid) :=
        hstands.agrees fun _ => ⟨data, hdata, rfl, hadmin, hlp⟩
      refine ⟨_, _, _, rfl, hv, fun id => ?_⟩
      simp [hr, hes, finishJoinOrder, issue, complete]
  · obtain ⟨es', u, result, hends', hagrees, hres, hjoin⟩ := afterRole_ends fails
      orderId (hstands.remembered role) hc hdata hadmin hlp
    dsimp only
    rw [complete_bind hends, hends']
    rw [hroleIn] at hr
    refine ⟨_, _, _, rfl, hagrees, fun id => ?_⟩
    have hjoin' := hjoin id
    rw [show (remembered v sid role).orders = s.orders from horders] at hjoin'
    refine ⟨by simp [hr, hes, hrate, hjoin'], fun _ r => ?_⟩
    simp only [List.mem_cons, reduceCtorEq, List.mem_append, hresolved r, hres r, or_false, false_or, hr,
      Except.ok.injEq]
    exact eq_comm

theorem Agree.disconnect (hs : Agree s) (sid : SocketId) : Agree (disconnect s sid) := by
  intro t
  by_cases ht : t = sid
  · subst ht
    exact agrees_of_not_connected connected_disconnect
  · rw [sockets_disconnect_of_ne ht, lastRole_disconnect]
    exact hs t

theorem Agree.moved (hs : Agree s) (m : Move) : Agree (moved s m) := by
  cases m with
  | drop sid => exact hs.disconnect sid
  | expire sid =>
    have htimed : Agree { s with expiryTimers := Function.update s.expiryTimers sid none } := hs
    exact htimed.disconnect sid
  | bumpLpPresence fails => cases fails <;> exact hs
  | pruneConnectAttempts | tick | setLink | setLp | setOrder => exact hs

theorem Agree.stands (hs : Agree s) (hc : s.connected sid = true) : ∃ k data,
    Stands s sid k (some data.role) ∧ k.connected = true ∧ k.data = some data ∧
      (Room.adminOrders ∈ k.rooms ↔ data.role = .admin) ∧
      (Room.lpAssignments ∈ k.rooms ↔ data.role = .lp) := by
  cases hk : s.sockets sid with
  | none => simp [State.connected, hk] at hc
  | some k =>
    have hc' : k.connected = true := by simpa [State.connected, hk] using hc
    obtain ⟨data, hdata, hlast, hadmin, hlp⟩ := hs sid k hk hc'
    exact ⟨k, data, ⟨hk, hlast⟩, hc', hdata, hadmin, hlp⟩

theorem Agree.next {e : Event} (hs : Agree s) (ha : (machine y).admits s e) :
    Agree ((machine y).next s e) := by
  intro t
  cases e with
  | outside m => exact hs.moved m t
  | connect sid token fails =>
    by_cases ht : t = sid
    · subst ht
      exact connect_agrees token
    · obtain ⟨hsockets, hrole⟩ :=
        complete_frame (s := s) fails (own_handleConnection (y := y) token) ht
      simp only [machine, handled, hsockets, hrole]
      exact hs t
  | joinOrder sid orderId fails =>
    by_cases ht : t = sid
    · subst ht
      obtain ⟨k, data, hk, hc, hdata, hadmin, hlp⟩ := hs.stands ha
      obtain ⟨es, u, result, hends, hagrees, -⟩ :=
        message_ends (y := y) fails orderId hk hc hdata hadmin hlp
      simp only [machine, handled, hends]
      exact hagrees
    · obtain ⟨hsockets, hrole⟩ :=
        complete_frame (s := s) fails (own_handleJoinOrder (y := y) orderId) ht
      simp only [machine, handled, hsockets, hrole]
      exact hs t

/-- For one event, from a state in which the rooms agree with the roles. -/
theorem follows_iff {e : Event} (hs : Agree s) (ha : (machine y).admits s e) :
    Follows ((machine y).entry s e) ↔ Heeds y s e := by
  cases e with
  | outside m => simp [Follows, Heeds, Machine.entry]
  | connect sid token fails => simp [Follows, Heeds, Machine.entry]
  | joinOrder sid orderId fails =>
    obtain ⟨k, data, hk, hc, hdata, hadmin, hlp⟩ := hs.stands ha
    have hfound : s.data sid = some data := by simp [State.data, hk.socket, hdata]
    obtain ⟨es, u, result, hends, -, hjoin⟩ :=
      message_ends (y := y) fails orderId hk hc hdata hadmin hlp
    have hout : ((machine y).entry s (.joinOrder sid orderId fails)).out = es := by
      simp only [Machine.entry, machine, handled, hends]
    constructor
    · intro h sid' id fails' data' role order he hdata' hrate hrole hf horder hauth
      obtain ⟨rfl, rfl, rfl⟩ := Event.joinOrder.inj he
      obtain rfl := Option.some.inj (hfound.symm.trans hdata')
      have hmem := (hjoin id).1.mpr ⟨hrate, ⟨role, hrole⟩, rfl, hf, order, horder, hauth⟩
      obtain ⟨data', role', order', hdata'', hres, horder', hauth'⟩ := h sid _ fails rfl id (hout ▸ hmem)
      rw [hout] at hres
      obtain rfl := Option.some.inj (hfound.symm.trans hdata'')
      obtain rfl := Option.some.inj (horder.symm.trans horder')
      obtain rfl := Except.ok.inj (hrole.symm.trans (((hjoin id).2 hmem role').mp hres))
      exact hauth'
    · intro h sid' orderId' fails' he id hmem
      obtain ⟨rfl, rfl, rfl⟩ := Event.joinOrder.inj he
      rw [hout] at hmem ⊢
      obtain ⟨hrate, ⟨role, hrole⟩, rfl, hf, order, horder, hauth⟩ := (hjoin id).1.mp hmem
      refine ⟨data, role, order, hfound, ((hjoin id).2 hmem role).mpr hrole, horder, ?_⟩
      exact h sid id fails data role order rfl hfound hrate hrole hf horder hauth

theorem agree_started {links lps orders now} : Agree (started links lps orders now) :=
  fun _ _ hk => by cases hk

/-- After every handler the data and the rooms of a connected socket go with the
role that was last resolved for it. Messages follow the role that is resolved
for them exactly as long as none uses up a role that is gone. -/
theorem rooms_follow_roles {links lps orders now} {tr : List (Entry State Event (List Effect))}
    (hr : Run (machine y) (started links lps orders now) tr s) :
    Agree s ∧ ((∀ e ∈ tr, Follows e) ↔ ∀ e ∈ tr, Heeds y e.pre e.act) := by
  have hreached {u tr'} (h : Run (machine y) (started links lps orders now) tr' u) : Agree u :=
    h.invariant agree_started fun _ _ hu ha => hu.next ha
  refine ⟨hreached hr, ?_⟩
  have hentry (e : Entry State Event (List Effect)) (he : e ∈ tr) : Follows e ↔ Heeds y e.pre e.act := by
    obtain ⟨tr₁, tr₂, rfl⟩ := List.append_of_mem he
    obtain ⟨hpre, ha, heq, -⟩ := hr.at_entry
    rw [heq]
    exact follows_iff (hreached hpre) ha
  exact forall₂_congr hentry

def sampleGateway : State :=
  started (fun _ => some .active)
    (fun address => if address = "GLP" then some ⟨.approved, 0⟩ else none)
    (fun id => if id = 1 then some ⟨"GUSER", some "GLP"⟩ else none) 0

def calm : Effect → Bool := fun _ => false

/-- The provider is suspended between two messages about its order. -/
def sampleEvents : List Event :=
  [.connect 1 sampleToken calm, .joinOrder 1 (some 1) calm,
    .outside (.setLp "GLP" (some ⟨.suspended, 0⟩)), .joinOrder 1 none calm]

theorem sampleEvents_admitted :
    Admitted (machine sampleSettings) sampleGateway sampleEvents := by
  decide +kernel

theorem sample_rooms_follow_roles :
    Agree (final (machine sampleSettings) sampleGateway sampleEvents) ∧
    (.lpAssignments ∉ (final (machine sampleSettings) sampleGateway sampleEvents).rooms 1 ∧
      .order 1 ∈ (final (machine sampleSettings) sampleGateway sampleEvents).rooms 1) ∧
    ((∀ e ∈ history (machine sampleSettings) sampleGateway sampleEvents, Follows e) ↔
      ∀ e ∈ history (machine sampleSettings) sampleGateway sampleEvents,
        Heeds sampleSettings e.pre e.act) := by
  have hmain := rooms_follow_roles (Run.of_actions sampleEvents sampleGateway sampleEvents_admitted)
  exact ⟨hmain.1, by decide +kernel, hmain.2⟩

def lateEvents : List Event :=
  [.connect 1 sampleToken calm, .outside (.setLp "GLP" (some ⟨.suspended, 0⟩)),
    .joinOrder 1 (some 1) calm]

theorem suspended_provider_joins : ∃ tr s,
    Run (machine sampleSettings) sampleGateway tr s ∧ ¬ ∀ e ∈ tr, Follows e := by
  have hadmitted : Admitted (machine sampleSettings) sampleGateway lateEvents := by decide +kernel
  refine ⟨_, _, Run.of_actions lateEvents sampleGateway hadmitted, fun h => ?_⟩
  let late := final (machine sampleSettings) sampleGateway (lateEvents.take 2)
  have hmem : (machine sampleSettings).entry late (.joinOrder 1 (some 1) calm) ∈
      history (machine sampleSettings) sampleGateway lateEvents := by
    simp [lateEvents, history, late, final]
  have hout : (handled sampleSettings late (.joinOrder 1 (some 1) calm)).1 =
      [.beginJoin 1, .findLink "GLP", .findLp "GLP", .resolved 1 .user, .leave 1 .lpAssignments,
        .offline "GLP", .setData 1 ⟨"GLP", .user, .session⟩, .findOrder 1, .join 1 (.order 1)] := by
    decide +kernel
  have hdata : late.data 1 = some ⟨"GLP", .lp, .session⟩ := by decide +kernel
  obtain ⟨data, role, order, hdata', hrole, horder, hauth⟩ :=
    h _ hmem 1 (some 1) calm rfl 1 (by simp [Machine.entry, machine, hout])
  simp only [Machine.entry, machine, hout] at hrole hdata' horder
  obtain rfl : role = .user := by simpa using hrole
  rw [hdata] at hdata'
  obtain rfl := Option.some.inj hdata'
  obtain rfl : order = ⟨"GUSER", some "GLP"⟩ := (Option.some.inj horder).symm
  exact absurd hauth (by decide)

end Lolipay.Coordinator.Rooms

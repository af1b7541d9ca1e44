import Lolipay.Async.Scheduling
import Lolipay.Coordinator.Database
import Lolipay.Coordinator.Wallets
import Mathlib.Data.Finset.Card

namespace Lolipay.Coordinator.Gateway

open Lolipay.Async.Process Lolipay.Async.Scheduling
open Lolipay.Coordinator.Orders (OrderId)
open Lolipay.Coordinator.Database (LpStatus)
open Lolipay.Coordinator.Wallets (WalletLinkStatus)

inductive Role where
  | admin
  | lp
  | user
  deriving DecidableEq, Repr

inductive TokenClass where
  | session
  | sep10
  deriving DecidableEq, Repr

def mayPromote : List TokenClass := [.session]

def mayOpenSocket : List TokenClass := [.session]

def maxSocketsPerAddress : ℕ := 10

def maxTimerMs : ℤ := 2147483647

def joinOrderRateLimit : ℕ := 30

def joinOrderRateWindowMs : ℕ := 10000

def connectRateLimit : ℕ := 20

def connectRateWindowMs : ℕ := 10000

abbrev SocketId := ℕ

/-- The claims of a token that the JWT library accepted. A claim that is not of
the type that the gateway asks for is absent here, and so is an empty `sub`. -/
structure Payload where
  sub : Option String
  cls : Option TokenClass
  exp : Option ℤ
  deriving DecidableEq, Repr

structure SocketData where
  address : String
  role : Role
  cls : TokenClass
  deriving DecidableEq, Repr

inductive Room where
  | user (address : String)
  | adminOrders
  | lpAssignments
  | order (id : OrderId)
  deriving DecidableEq, Repr

/-- A socket with the claims of the token in its handshake, `none` without one. -/
structure Socket where
  handshake : Option Payload
  connected : Bool
  data : Option SocketData
  rooms : Finset Room
  deriving DecidableEq

structure Attempts where
  count : ℕ
  windowStart : ℕ
  deriving DecidableEq, Repr

structure Lp where
  status : LpStatus
  lastHeartbeatAt : ℕ
  deriving DecidableEq, Repr

structure OrderRow where
  userAddress : String
  lpWallet : Option String
  deriving DecidableEq, Repr

inductive JoinOrderError where
  | rateLimited
  | unavailable
  | invalidOrderId
  | forbidden (orderId : OrderId)
  deriving DecidableEq, Repr

structure Settings where
  accountOf : String → String
  adminAddresses : List String

/-- The gateway's own tables, the sockets with what was emitted to them, and the
tables of the database that it reads. No code reads `lastRole`: it keeps what
`resolveRole` last returned for a socket. -/
structure State where
  socketsByAddress : String → Option (Finset SocketId)
  lpAddressesOnline : Finset String
  joinAttempts : SocketId → Option Attempts
  connectAttempts : String → Option Attempts
  expiryTimers : SocketId → Option ℤ
  sockets : SocketId → Option Socket
  emitted : List (SocketId × JoinOrderError)
  lastRole : SocketId → Option Role
  now : ℕ
  links : String → Option WalletLinkStatus
  lps : String → Option Lp
  orders : OrderId → Option OrderRow

variable (s : State) (sid : SocketId) (address : String)

def State.socketSet : Finset SocketId := (s.socketsByAddress address).getD ∅

def State.connected : Bool := ((s.sockets sid).map (·.connected)).getD false

def State.data : Option SocketData := (s.sockets sid).bind (·.data)

def State.rooms : Finset Room := ((s.sockets sid).map (·.rooms)).getD ∅

def State.updateSocket (f : Socket → Socket) : State :=
  { s with sockets := Function.update s.sockets sid ((s.sockets sid).map f) }

def releaseSocketSlot : State :=
  match s.socketsByAddress address with
  | none => s
  | some set =>
    let set := set.erase sid
    { s with
      socketsByAddress := Function.update s.socketsByAddress address
        (if set.card = 0 then none else some set) }

def offline : State := { s with lpAddressesOnline := s.lpAddressesOnline.erase address }

def handleDisconnect : State :=
  let s := { s with
    joinAttempts := Function.update s.joinAttempts sid none
    expiryTimers := Function.update s.expiryTimers sid none }
  match s.data sid with
  | none => s
  | some data =>
    let s := releaseSocketSlot s sid data.address
    let stillConnected := 0 < (s.socketSet data.address).card
    if data.role = .lp ∧ ¬ stillConnected then offline s data.address else s

/-- The library takes the socket out of its rooms, and calls `handleDisconnect`
at once. A socket that has gone already is left alone. -/
def disconnect : State :=
  if s.connected sid then
    handleDisconnect
      (s.updateSocket sid fun socket => { socket with connected := false, rooms := ∅ }) sid
  else s

/-- Rooms take only sockets that are still connected. -/
def join (room : Room) : State :=
  s.updateSocket sid fun socket =>
    if socket.connected then { socket with rooms := insert room socket.rooms } else socket

def leave (room : Room) : State :=
  s.updateSocket sid fun socket => { socket with rooms := socket.rooms.erase room }

def rated (windowMs limit now : ℕ) : Option Attempts → Bool × Attempts
  | none => (true, ⟨1, now⟩)
  | some record =>
    if now - record.windowStart > windowMs then (true, ⟨1, now⟩)
    else (decide (record.count + 1 ≤ limit), { record with count := record.count + 1 })

def checkJoinRate : Bool × State :=
  let (allowed, record) := rated joinOrderRateWindowMs joinOrderRateLimit s.now (s.joinAttempts sid)
  (allowed, { s with joinAttempts := Function.update s.joinAttempts sid (some record) })

def checkConnectRate : Bool × State :=
  let (allowed, record) := rated connectRateWindowMs connectRateLimit s.now (s.connectAttempts address)
  (allowed, { s with connectAttempts := Function.update s.connectAttempts address (some record) })

/-- The address, class and expiry of a token that may open a socket. -/
def claimsOf (token : Option Payload) : Option (String × TokenClass × ℤ) := do
  let payload ← token
  let address ← payload.sub
  let cls ← payload.cls
  guard (cls ∈ mayOpenSocket)
  let exp ← payload.exp
  pure (address, cls, exp * 1000)

def reserve : State :=
  { s with
    socketsByAddress :=
      Function.update s.socketsByAddress address (some (insert sid (s.socketSet address))) }

/-- What `handleConnection` does before its first await. -/
def accept (token : Option Payload) : State × Option (String × TokenClass × ℤ) :=
  let s := { s with sockets := Function.update s.sockets sid (some ⟨token, true, none, ∅⟩) }
  match claimsOf token with
  | none => (disconnect s sid, none)
  | some (address, cls, expiresAt) =>
    let (allowed, s) := checkConnectRate s address
    if !allowed then (disconnect s sid, none)
    else if maxSocketsPerAddress ≤ (s.socketSet address).card then (disconnect s sid, none)
    else (reserve s sid address, some (address, cls, expiresAt))

def remaining (expiresAt : ℤ) : ℤ := min (expiresAt - s.now) maxTimerMs

def setData (data : SocketData) : State :=
  s.updateSocket sid fun socket => { socket with data := some data }

/-- What `handleConnection` does once it knows the role, up to the next await. -/
def attach (data : SocketData) (expiresAt : ℤ) : State × Bool :=
  let s := setData s sid data
  if remaining s expiresAt ≤ 0 then
    (disconnect (releaseSocketSlot s sid data.address) sid, false)
  else
    let s := { s with
      expiryTimers := Function.update s.expiryTimers sid (some (s.now + remaining s expiresAt)) }
    (join s sid (.user data.address), true)

/-- What `handleJoinOrder` does before its first await. -/
def beginJoin : State × Option SocketData :=
  match s.data sid with
  | none => (s, none)
  | some data =>
    let (allowed, s) := checkJoinRate s sid
    if allowed then (s, some data)
    else ({ s with emitted := s.emitted ++ [(sid, .rateLimited)] }, none)

/-- The stretches of the handlers between two awaits. -/
inductive Effect where
  | accept (sid : SocketId) (token : Option Payload)
  | findLink (account : String)
  | findLp (address : String)
  | resolved (sid : SocketId) (role : Role)
  | refuse (sid : SocketId) (address : String)
  | attach (sid : SocketId) (data : SocketData) (expiresAt : ℤ)
  | join (sid : SocketId) (room : Room)
  | leave (sid : SocketId) (room : Room)
  | online (address : String)
  | offline (address : String)
  | heartbeat (address : String)
  | beginJoin (sid : SocketId)
  | setData (sid : SocketId) (data : SocketData)
  | disconnect (sid : SocketId)
  | emitError (sid : SocketId) (error : JoinOrderError)
  | findOrder (id : OrderId)
  deriving DecidableEq

/-- An outer `none` is a query that threw. -/
@[reducible] def Reply : Effect → Type
  | .accept _ _ => Option (String × TokenClass × ℤ)
  | .findLink _ => Option (Option WalletLinkStatus)
  | .findLp _ => Option (Option LpStatus)
  | .attach _ _ _ => Bool
  | .beginJoin _ => Option SocketData
  | .findOrder _ => Option (Option OrderRow)
  | .resolved _ _ | .refuse _ _ | .join _ _ | .leave _ _ | .online _ | .offline _ | .heartbeat _
  | .setData _ _ | .disconnect _ | .emitError _ _ => Unit

abbrev Handler (α : Type) := Program Effect Reply α

def onlyIf (c : Prop) [Decidable c] (p : Handler Unit) : Handler Unit := if c then p else .pure ()

inductive Refusal where
  | unauthorized
  | unavailable
  deriving DecidableEq, Repr

def returns (sid : SocketId) (role : Role) : Handler (Except Refusal Role) :=
  .step (.resolved sid role) fun _ => .pure (.ok role)

def resolveRole (y : Settings) (sid : SocketId) (address : String) (cls : TokenClass) :
    Handler (Except Refusal Role) :=
  .step (.findLink (y.accountOf address)) fun
    | none => .pure (.error .unavailable)
    | some link =>
      if link ≠ some .active then .pure (.error .unauthorized)
      else if cls ∉ mayPromote then returns sid .user
      else if address ∈ y.adminAddresses then returns sid .admin
      else
        .step (.findLp address) fun
          | none => .pure (.error .unavailable)
          | some status => if status = some .approved then returns sid .lp else returns sid .user

def enterRooms (sid : SocketId) (address : String) (role : Role) : Handler Unit := do
  onlyIf (role = .admin) (issue (Effect.join sid .adminOrders))
  onlyIf (role = .lp) do
    issue (Effect.join sid .lpAssignments)
    issue (Effect.online address)
    issue (Effect.heartbeat address)

/-- What `handleConnection` does when `resolveRole` is through. -/
def finishConnection (sid : SocketId) (address : String) (cls : TokenClass) (expiresAt : ℤ) :
    Except Refusal Role → Handler Unit
  | .error _ => issue (Effect.refuse sid address)
  | .ok role => do
    let attached : Bool ← issue (Effect.attach sid ⟨address, role, cls⟩ expiresAt)
    onlyIf attached (enterRooms sid address role)

def handleConnection (y : Settings) (sid : SocketId) (token : Option Payload) : Handler Unit := do
  let claims : Option (String × TokenClass × ℤ) ← issue (Effect.accept sid token)
  match claims with
  | none => .pure ()
  | some (address, cls, expiresAt) =>
    resolveRole y sid address cls >>= finishConnection sid address cls expiresAt

def applyRoleChange (sid : SocketId) (data : SocketData) (role : Role) : Handler Unit := do
  onlyIf (data.role = .admin) (issue (Effect.leave sid .adminOrders))
  onlyIf (data.role = .lp) do
    issue (Effect.leave sid .lpAssignments)
    issue (Effect.offline data.address)
  onlyIf (role = .admin) (issue (Effect.join sid .adminOrders))
  onlyIf (role = .lp) do
    issue (Effect.join sid .lpAssignments)
    issue (Effect.online data.address)
  issue (Effect.setData sid { data with role := role })

def authorized (data : SocketData) (order : OrderRow) : Prop :=
  data.role = .admin ∨ order.userAddress = data.address ∨
    (data.role = .lp ∧ order.lpWallet = some data.address)

instance (data : SocketData) (order : OrderRow) : Decidable (authorized data order) :=
  inferInstanceAs (Decidable (_ ∨ _ ∨ _))

/-- The message names an order if its `orderId` is a string that is not empty. -/
def joinOrder (sid : SocketId) (data : SocketData) : Option OrderId → Handler Unit
  | none => issue (Effect.emitError sid .invalidOrderId)
  | some orderId =>
    .step (.findOrder orderId) fun
      | none => .fail
      | some none => issue (Effect.emitError sid (.forbidden orderId))
      | some (some order) =>
        if authorized data order then issue (Effect.join sid (.order orderId))
        else issue (Effect.emitError sid (.forbidden orderId))

/-- What `handleJoinOrder` does when `resolveRole` is through. After a change of
role it goes on with the data from before it. -/
def finishJoinOrder (sid : SocketId) (data : SocketData) (orderId : Option OrderId) :
    Except Refusal Role → Handler Unit
  | .error .unauthorized => issue (Effect.disconnect sid)
  | .error .unavailable => issue (Effect.emitError sid .unavailable)
  | .ok role => do
    onlyIf (role ≠ data.role) (applyRoleChange sid data role)
    joinOrder sid data orderId

def handleJoinOrder (y : Settings) (sid : SocketId) (orderId : Option OrderId) : Handler Unit := do
  let data : Option SocketData ← issue (Effect.beginJoin sid)
  match data with
  | none => .pure ()
  | some data =>
    resolveRole y sid data.address data.cls >>= finishJoinOrder sid data orderId

def effect (e : Effect) (fails : Bool) (s : State) : State × Reply e :=
  match e with
  | .accept sid token => accept s sid token
  | .findLink account => (s, if fails then none else some (s.links account))
  | .findLp address => (s, if fails then none else some ((s.lps address).map (·.status)))
  | .resolved sid role => ({ s with lastRole := Function.update s.lastRole sid (some role) }, ())
  | .refuse sid address => (disconnect (releaseSocketSlot s sid address) sid, ())
  | .attach sid data expiresAt => attach s sid data expiresAt
  | .join sid room => (join s sid room, ())
  | .leave sid room => (leave s sid room, ())
  | .online address => ({ s with lpAddressesOnline := insert address s.lpAddressesOnline }, ())
  | .offline address => (offline s address, ())
  | .heartbeat address =>
    (if fails then s
      else { s with
        lps := Function.update s.lps address
          ((s.lps address).map fun lp => { lp with lastHeartbeatAt := s.now }) }, ())
  | .beginJoin sid => beginJoin s sid
  | .setData sid data => (setData s sid data, ())
  | .disconnect sid => (disconnect s sid, ())
  | .emitError sid error => ({ s with emitted := s.emitted ++ [(sid, error)] }, ())
  | .findOrder id => (s, if fails then none else some (s.orders id))

/-- What happens between the handlers: a client goes, a token runs out, the
presence timer ticks, time passes and others write to the database. -/
inductive Move where
  | drop (sid : SocketId)
  | expire (sid : SocketId)
  | bumpLpPresence (fails : Bool)
  | pruneConnectAttempts
  | tick (ms : ℕ)
  | setLink (account : String) (status : Option WalletLinkStatus)
  | setLp (address : String) (lp : Option Lp)
  | setOrder (id : OrderId) (order : Option OrderRow)

def bumpLpPresence : State :=
  { s with
    lps := fun address =>
      (s.lps address).map fun lp =>
        if address ∈ s.lpAddressesOnline ∧ lp.status = .approved then
          { lp with lastHeartbeatAt := s.now }
        else lp }

def pruneConnectAttempts : State :=
  { s with
    connectAttempts := fun address =>
      (s.connectAttempts address).filter fun record =>
        decide (s.now - record.windowStart ≤ connectRateWindowMs) }

def moves : Move → Prop
  | .drop sid => s.connected sid
  | .expire sid => ∃ t ∈ s.expiryTimers sid, t ≤ s.now
  | _ => True

instance : (m : Move) → Decidable (moves s m)
  | .drop sid => inferInstanceAs (Decidable (s.connected sid = true))
  | .expire sid =>
    match h : s.expiryTimers sid with
    | none => .isFalse (by simp [moves, h])
    | some t => decidable_of_iff (t ≤ s.now) (by simp [moves, h])
  | .bumpLpPresence _ | .pruneConnectAttempts | .tick _ | .setLink _ _ | .setLp _ _
  | .setOrder _ _ => .isTrue trivial

def moved : Move → State
  | .drop sid => disconnect s sid
  | .expire sid =>
    disconnect { s with expiryTimers := Function.update s.expiryTimers sid none } sid
  | .bumpLpPresence fails => if fails then s else bumpLpPresence s
  | .pruneConnectAttempts => pruneConnectAttempts s
  | .tick ms => { s with now := s.now + ms }
  | .setLink account status => { s with links := Function.update s.links account status }
  | .setLp address lp => { s with lps := Function.update s.lps address lp }
  | .setOrder id order => { s with orders := Function.update s.orders id order }

inductive Call where
  | connect (sid : SocketId) (token : Option Payload)
  | joinOrder (sid : SocketId) (orderId : Option OrderId)

def body (y : Settings) : Call → Handler Unit
  | .connect sid token => handleConnection y sid token
  | .joinOrder sid orderId => handleJoinOrder y sid orderId

def delivers : Call → Prop
  | .connect _ _ => True
  | .joinOrder sid _ => s.connected sid

instance : (c : Call) → Decidable (delivers s c)
  | .connect _ _ => .isTrue trivial
  | .joinOrder sid _ => inferInstanceAs (Decidable (s.connected sid = true))

/-- Every connection gets a socket of its own. -/
def permits : Effect → Prop
  | .accept sid _ => s.sockets sid = none
  | _ => True

instance : (e : Effect) → Decidable (permits s e)
  | .accept sid _ => inferInstanceAs (Decidable (s.sockets sid = none))
  | .findLink _ | .findLp _ | .resolved _ _ | .refuse _ _ | .attach _ _ _ | .join _ _ | .leave _ _
  | .online _ | .offline _ | .heartbeat _ | .beginJoin _ | .setData _ _ | .disconnect _
  | .emitError _ _ | .findOrder _ => .isTrue trivial

def started (links : String → Option WalletLinkStatus) (lps : String → Option Lp)
    (orders : OrderId → Option OrderRow) (now : ℕ) : State where
  socketsByAddress _ := none
  lpAddressesOnline := ∅
  joinAttempts _ := none
  connectAttempts _ := none
  expiryTimers _ := none
  sockets _ := none
  emitted := []
  lastRole _ := none
  now := now
  links := links
  lps := lps
  orders := orders

variable {s : State} {sid t : SocketId} {address : String}

theorem sockets_updateSocket (f : Socket → Socket) :
    (s.updateSocket sid f).sockets t = if t = sid then (s.sockets t).map f else s.sockets t := by
  by_cases h : t = sid <;> simp [State.updateSocket, h]

@[simp] theorem sockets_releaseSocketSlot :
    (releaseSocketSlot s sid address).sockets = s.sockets := by
  unfold releaseSocketSlot
  split <;> rfl

@[simp] theorem lastRole_releaseSocketSlot :
    (releaseSocketSlot s sid address).lastRole = s.lastRole := by
  unfold releaseSocketSlot
  split <;> rfl

@[simp] theorem lpAddressesOnline_releaseSocketSlot :
    (releaseSocketSlot s sid address).lpAddressesOnline = s.lpAddressesOnline := by
  unfold releaseSocketSlot
  split <;> rfl

theorem socketSet_releaseSocketSlot (a : String) :
    (releaseSocketSlot s sid address).socketSet a =
      if a = address then (s.socketSet a).erase sid else s.socketSet a := by
  by_cases ha : a = address
  · subst ha
    unfold releaseSocketSlot State.socketSet
    split
    next h => simp [h]
    next set h =>
      by_cases hset : set.erase sid = ∅ <;> simp [h, hset]
  · unfold releaseSocketSlot State.socketSet
    split <;> simp [ha]

@[simp] theorem sockets_handleDisconnect : (handleDisconnect s sid).sockets = s.sockets := by
  simp only [handleDisconnect]
  split
  next => rfl
  next data _ => split <;> simp [offline]

@[simp] theorem lastRole_handleDisconnect : (handleDisconnect s sid).lastRole = s.lastRole := by
  simp only [handleDisconnect]
  split
  next => rfl
  next data _ => split <;> simp [offline]

@[simp] theorem lastRole_disconnect : (disconnect s sid).lastRole = s.lastRole := by
  unfold disconnect
  split
  next => simp [State.updateSocket]
  next => rfl

theorem sockets_disconnect_of_ne (h : t ≠ sid) : (disconnect s sid).sockets t = s.sockets t := by
  unfold disconnect
  split
  next => simp [sockets_updateSocket, h]
  next => rfl

@[simp] theorem connected_disconnect : (disconnect s sid).connected sid = false := by
  unfold disconnect
  split
  next =>
    simp only [State.connected, sockets_handleDisconnect, sockets_updateSocket, if_true]
    cases s.sockets sid <;> rfl
  next h => simpa using h

def entered (s : State) (sid : SocketId) (token : Option Payload)
    (attempts : String → Option Attempts) : State :=
  { s with
    sockets := Function.update s.sockets sid (some ⟨token, true, none, ∅⟩)
    connectAttempts := attempts }

theorem accept_cases (s : State) (sid : SocketId) (token : Option Payload) : ∃ attempts,
    accept s sid token = (disconnect (entered s sid token attempts) sid, none) ∨
    ∃ address cls expiresAt, claimsOf token = some (address, cls, expiresAt) ∧
      (s.socketSet address).card < maxSocketsPerAddress ∧
      accept s sid token =
        (reserve (entered s sid token attempts) sid address, some (address, cls, expiresAt)) := by
  cases hc : claimsOf token with
  | none =>
    refine ⟨s.connectAttempts, .inl ?_⟩
    simp only [accept, hc]
    rfl
  | some claims =>
    obtain ⟨address, cls, expiresAt⟩ := claims
    let u : State := { s with sockets := Function.update s.sockets sid (some ⟨token, true, none, ∅⟩) }
    have heq : (checkConnectRate u address).2 =
      entered s sid token (checkConnectRate u address).2.connectAttempts := rfl
    refine ⟨(checkConnectRate u address).2.connectAttempts, ?_⟩
    rw [← heq]
    by_cases hrate : (checkConnectRate u address).1 = true
    · by_cases hfull : maxSocketsPerAddress ≤ (s.socketSet address).card
      · left
        have hfull' : maxSocketsPerAddress ≤
          ((checkConnectRate u address).2.socketSet address).card := hfull
        simp only [accept, hc]
        rw [if_neg (by simpa using hrate), if_pos hfull']
      · right
        have hfull' : ¬ maxSocketsPerAddress ≤
          ((checkConnectRate u address).2.socketSet address).card := hfull
        refine ⟨address, cls, expiresAt, rfl, by omega, ?_⟩
        simp only [accept, hc]
        rw [if_neg (by simpa using hrate), if_neg hfull']
    · left
      simp only [accept, hc]
      rw [if_pos (by simpa using hrate)]

def timed (s : State) (timers : SocketId → Option ℤ) : State := { s with expiryTimers := timers }

theorem attach_cases (s : State) (sid : SocketId) (data : SocketData) (expiresAt : ℤ) :
    (remaining s expiresAt ≤ 0 ∧
      attach s sid data expiresAt =
        (disconnect (releaseSocketSlot (setData s sid data) sid data.address) sid, false)) ∨
    (0 < remaining s expiresAt ∧ ∃ timers,
      attach s sid data expiresAt =
        (join (timed (setData s sid data) timers) sid (.user data.address), true)) := by
  have hnow : remaining (setData s sid data) expiresAt = remaining s expiresAt := rfl
  by_cases h : remaining s expiresAt ≤ 0
  · left
    refine ⟨h, ?_⟩
    simp only [attach, hnow, if_pos h]
  · right
    refine ⟨by omega, Function.update s.expiryTimers sid (some (s.now + remaining s expiresAt)), ?_⟩
    simp only [attach, hnow, if_neg h]
    rfl

theorem every_onlyIf {P : Effect → Prop} {c : Prop} [Decidable c] {p : Handler Unit}
    (h : Every P p) : Every P (onlyIf c p) := by
  unfold onlyIf
  split
  next => exact h
  next => trivial

variable {P : Effect → Prop} {y : Settings} {data : SocketData} {role : Role}

theorem every_resolveRole {cls : TokenClass} (hlink : ∀ account, P (.findLink account))
    (hlp : ∀ address, P (.findLp address)) (hresolved : ∀ role, P (.resolved sid role)) :
    Every P (resolveRole y sid address cls) := by
  have hreturns (role : Role) : Every P (returns sid role) := ⟨hresolved role, fun _ => trivial⟩
  refine ⟨hlink _, fun link => ?_⟩
  cases link with
  | none => trivial
  | some link =>
    dsimp only
    split
    next => trivial
    next =>
      split
      next => exact hreturns _
      next =>
        split
        next => exact hreturns _
        next =>
          refine ⟨hlp _, fun status => ?_⟩
          cases status with
          | none => trivial
          | some status =>
            dsimp only
            split <;> exact hreturns _

theorem every_enterRooms (hadmin : P (.join sid .adminOrders)) (hlp : P (.join sid .lpAssignments))
    (honline : P (.online address)) (hheartbeat : P (.heartbeat address)) :
    Every P (enterRooms sid address role) := by
  refine (every_onlyIf (every_one hadmin)).bind fun _ => every_onlyIf ?_
  apply (every_one hlp).bind
  intro _
  exact (every_one honline).bind fun _ => every_one hheartbeat

theorem every_applyRoleChange (hleave : ∀ room, P (.leave sid room))
    (hoffline : P (.offline data.address)) (hadmin : P (.join sid .adminOrders))
    (hlp : P (.join sid .lpAssignments)) (honline : P (.online data.address))
    (hset : P (.setData sid { data with role := role })) :
    Every P (applyRoleChange sid data role) := by
  apply (every_onlyIf (every_one (hleave _))).bind
  intro _
  refine (every_onlyIf ((every_one (hleave _)).bind fun _ => every_one hoffline)).bind fun _ => ?_
  apply (every_onlyIf (every_one hadmin)).bind
  intro _
  refine (every_onlyIf ((every_one hlp).bind fun _ => every_one honline)).bind fun _ => ?_
  exact every_one hset

theorem every_joinOrder {orderId : Option OrderId} (herror : ∀ e, P (.emitError sid e))
    (hfind : ∀ id, P (.findOrder id)) (hjoin : ∀ id, P (.join sid (.order id))) :
    Every P (joinOrder sid data orderId) := by
  cases orderId with
  | none => exact every_one (herror _)
  | some id =>
    refine ⟨hfind id, fun order => ?_⟩
    rcases order with _ | _ | order
    · trivial
    · exact every_one (herror _)
    · dsimp only
      split
      next => exact every_one (hjoin id)
      next => exact every_one (herror _)

def sampleSettings : Settings := ⟨id, []⟩

def sampleToken : Option Payload := some ⟨some "GLP", some .session, some 3600⟩

end Lolipay.Coordinator.Gateway

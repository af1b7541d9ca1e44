import Lolipay.Coordinator.Gateway

namespace Lolipay.Coordinator.Accounts

open Lolipay.Async.Scheduling (Pid)
open Lolipay.Coordinator.Gateway

def owner (s : State) (sid : SocketId) : Option String :=
  (s.sockets sid).bind fun socket => socket.handshake.bind (·.sub)

/-- Giving up a slot leaves another one behind if the address counts as present. -/
def Leaves (s : State) (sid : SocketId) (address : String) : Prop :=
  address ∈ s.lpAddressesOnline → ((s.socketSet address).erase sid).Nonempty

/-- A connected socket may go if its data says that it is a provider's, or if
another one is left behind it. -/
def Parting (s : State) (sid : SocketId) : Prop :=
  s.connected sid = true → ∀ data ∈ s.data sid, data.role = .lp ∨ Leaves s sid data.address

/-- The condition on a stretch of a handler. A connection gets its data while
it is still there, one that is turned away meanwhile leaves another one behind
or was not counted as present, and only an address that holds a slot is put
among the present ones. -/
def Careful (s : State) : Effect → Prop
  | .attach sid data expiresAt =>
    if 0 < remaining s expiresAt then s.connected sid = true
    else (s.connected sid = true ∧ data.role = .lp) ∨ Leaves s sid data.address
  | .refuse sid address => Leaves s sid address
  | .online address => (s.socketSet address).Nonempty
  | .disconnect sid => Parting s sid
  | _ => True

def Fair (s : State) : Move → Prop
  | .drop sid | .expire sid => Parting s sid
  | _ => True

instance (s : State) (sid : SocketId) (address : String) : Decidable (Leaves s sid address) :=
  inferInstanceAs (Decidable (_ → _))

instance (s : State) (sid : SocketId) : Decidable (Parting s sid) :=
  match h : s.data sid with
  | none => .isTrue (by simp [Parting, h])
  | some data =>
    decidable_of_iff (s.connected sid = true → data.role = .lp ∨ Leaves s sid data.address)
      (by simp [Parting, h])

instance (s : State) : (e : Effect) → Decidable (Careful s e)
  | .attach sid data expiresAt =>
    inferInstanceAs (Decidable (if 0 < remaining s expiresAt then s.connected sid = true
      else (s.connected sid = true ∧ data.role = .lp) ∨ Leaves s sid data.address))
  | .refuse sid address => inferInstanceAs (Decidable (Leaves s sid address))
  | .online address => inferInstanceAs (Decidable (s.socketSet address).Nonempty)
  | .disconnect sid => inferInstanceAs (Decidable (Parting s sid))
  | .accept _ _ | .findLink _ | .findLp _ | .resolved _ _ | .join _ _ | .leave _ _ | .offline _
  | .heartbeat _ | .beginJoin _ | .setData _ _ | .emitError _ _ | .findOrder _ => .isTrue trivial

instance (s : State) : (m : Move) → Decidable (Fair s m)
  | .drop sid | .expire sid => inferInstanceAs (Decidable (Parting s sid))
  | .bumpLpPresence _ | .pruneConnectAttempts | .tick _ | .setLink _ _ | .setLp _ _
  | .setOrder _ _ => .isTrue trivial

variable {s : State} {sid t : SocketId} {address a : String} {fails : Bool}

theorem owner_updateSocket {f : Socket → Socket} (hf : ∀ k, (f k).handshake = k.handshake) :
    owner (s.updateSocket sid f) t = owner s t := by
  simp only [owner, sockets_updateSocket]
  split
  next => cases s.sockets t <;> simp [hf]
  next => rfl

theorem connected_updateSocket {f : Socket → Socket} (hf : ∀ k, (f k).connected = k.connected) :
    (s.updateSocket sid f).connected t = s.connected t := by
  simp only [State.connected, sockets_updateSocket]
  split
  next => cases s.sockets t <;> simp [hf]
  next => rfl

theorem data_updateSocket {f : Socket → Socket} (hf : ∀ k, (f k).data = k.data) :
    (s.updateSocket sid f).data t = s.data t := by
  simp only [State.data, sockets_updateSocket]
  split
  next => cases s.sockets t <;> simp [hf]
  next => rfl

/-- What the accounts of the gateway come down to. -/
@[ext] structure View where
  owner : SocketId → Option String
  connected : SocketId → Bool
  data : SocketId → Option SocketData
  slots : String → Finset SocketId
  online : Finset String

def view (s : State) : View := ⟨owner s, s.connected, s.data, s.socketSet, s.lpAddressesOnline⟩

def View.release (v : View) (sid : SocketId) (address : String) : View :=
  { v with slots := Function.update v.slots address ((v.slots address).erase sid) }

def View.gone (v : View) (sid : SocketId) : View :=
  { v with connected := Function.update v.connected sid false }

def View.offline (v : View) (address : String) : View :=
  { v with online := v.online.erase address }

def View.absent (v : View) (data : SocketData) : View :=
  if data.role = .lp ∧ v.slots data.address = ∅ then v.offline data.address else v

def View.setData (v : View) (sid : SocketId) (data : SocketData) : View :=
  { v with data := Function.update v.data sid (some data) }

theorem view_release : view (releaseSocketSlot s sid address) = (view s).release sid address := by
  ext1
  · funext t
    simp [view, owner, View.release]
  · funext t
    simp [view, State.connected, View.release]
  · funext t
    simp [view, State.data, View.release]
  · funext a
    by_cases ha : a = address
    · subst ha
      simp [view, View.release, socketSet_releaseSocketSlot]
    · simp [view, View.release, socketSet_releaseSocketSlot, ha]
  · simp [view, View.release]

theorem view_updateSocket {f : Socket → Socket} (hh : ∀ k, (f k).handshake = k.handshake)
    (hc : ∀ k, (f k).connected = k.connected) (hd : ∀ k, (f k).data = k.data) :
    view (s.updateSocket sid f) = view s := by
  ext1
  · funext t
    exact owner_updateSocket hh
  · funext t
    exact connected_updateSocket hc
  · funext t
    exact data_updateSocket hd
  · rfl
  · rfl

theorem view_join (room : Room) : view (join s sid room) = view s := by
  apply view_updateSocket <;> intro k <;> split <;> rfl

theorem view_leave (room : Room) : view (leave s sid room) = view s := by
  apply view_updateSocket <;> intro k <;> rfl

theorem view_setData (data : SocketData) (h : owner s sid ≠ none) :
    view (setData s sid data) = (view s).setData sid data := by
  ext1
  · funext t
    exact owner_updateSocket fun _ => rfl
  · funext t
    exact connected_updateSocket fun _ => rfl
  · funext t
    cases hk : s.sockets sid with
    | none => simp [owner, hk] at h
    | some k =>
      by_cases ht : t = sid
      · subst ht
        simp [view, setData, State.data, View.setData, sockets_updateSocket, hk]
      · simp [view, setData, State.data, View.setData, sockets_updateSocket, ht]
  · rfl
  · rfl

theorem view_gone :
    view (s.updateSocket sid fun socket => { socket with connected := false, rooms := ∅ }) =
      (view s).gone sid := by
  ext1
  · funext t
    exact owner_updateSocket fun _ => rfl
  · funext t
    by_cases ht : t = sid
    · subst ht
      cases hk : s.sockets t <;> simp [view, State.connected, View.gone, sockets_updateSocket, hk]
    · simp [view, State.connected, View.gone, sockets_updateSocket, ht]
  · funext t
    exact data_updateSocket fun _ => rfl
  · rfl
  · rfl

theorem view_handleDisconnect_none (h : s.data sid = none) :
    view (handleDisconnect s sid) = view s := by
  have h' : ({ s with
      joinAttempts := Function.update s.joinAttempts sid none
      expiryTimers := Function.update s.expiryTimers sid none } : State).data sid = none := h
  simp only [handleDisconnect, h']
  rfl

theorem view_handleDisconnect {data : SocketData} (h : s.data sid = some data) :
    view (handleDisconnect s sid) = ((view s).release sid data.address).absent data := by
  generalize hu : ({ s with
      joinAttempts := Function.update s.joinAttempts sid none
      expiryTimers := Function.update s.expiryTimers sid none } : State) = u
  have hview : view u = view s := by
    rw [← hu]
    rfl
  have hdata : u.data sid = some data := by
    rw [← hu]
    exact h
  have hslots : (releaseSocketSlot u sid data.address).socketSet data.address =
      ((view s).release sid data.address).slots data.address := by
    rw [← hview, ← view_release]
    rfl
  simp only [handleDisconnect, hu, hdata, hslots, Finset.card_pos, Finset.not_nonempty_iff_eq_empty]
  have hoffline : view (offline (releaseSocketSlot u sid data.address) data.address) =
      ((view s).release sid data.address).offline data.address := by
    rw [← hview, ← view_release]
    rfl
  rw [View.absent]
  split
  next => exact hoffline
  next => rw [view_release, hview]

theorem view_disconnect_of_gone (h : s.connected sid = false) : view (disconnect s sid) = view s := by
  simp [disconnect, h]

theorem view_disconnect_none (h : s.connected sid = true) (hdata : s.data sid = none) :
    view (disconnect s sid) = (view s).gone sid := by
  have hdata' : (s.updateSocket sid fun socket =>
      { socket with connected := false, rooms := ∅ }).data sid = none := by
    rw [data_updateSocket]
    · exact hdata
    · intro k
      rfl
  rw [disconnect, if_pos h, view_handleDisconnect_none hdata', view_gone]

theorem view_disconnect {data : SocketData} (h : s.connected sid = true)
    (hdata : s.data sid = some data) :
    view (disconnect s sid) = (((view s).gone sid).release sid data.address).absent data := by
  have hdata' : (s.updateSocket sid fun socket =>
      { socket with connected := false, rooms := ∅ }).data sid = some data := by
    rw [data_updateSocket]
    · exact hdata
    · intro k
      rfl
  rw [disconnect, if_pos h, view_handleDisconnect hdata', view_gone]

/-- The accounts, with the connections that are still waiting for their role
and the handlers that wait with them. -/
structure Tables (v : View) (pending : SocketId → Option Pid) : Prop where
  slots : ∀ a sid, sid ∈ v.slots a ↔
    v.owner sid = some a ∧ (v.connected sid = true ∨ pending sid ≠ none)
  online : ∀ a ∈ v.online, (v.slots a).Nonempty
  data : ∀ sid data, v.data sid = some data → v.owner sid = some data.address ∧ pending sid = none
  waiting : ∀ sid, v.connected sid = true → v.data sid = none → pending sid ≠ none
  known : ∀ sid, pending sid ≠ none → ∃ a, v.owner sid = some a

variable {v : View} {pending : SocketId → Option Pid} {pid : Pid} {data : SocketData}

theorem Tables.leave (h : Tables v pending) (howner : v.owner sid = some address)
    (honline : ∀ a ∈ v.online, (Function.update v.slots address ((v.slots address).erase sid) a).Nonempty) :
    Tables ((v.gone sid).release sid address) (Function.update pending sid none) where
  slots a t := by
    have hslots := h.slots a t
    by_cases ht : t = sid
    · subst ht
      by_cases ha : a = address
      · subst ha
        simp [View.release, View.gone]
      · simp only [View.release, View.gone, Function.update_of_ne ha, Function.update_self]
        grind
    · by_cases ha : a = address
      · subst ha
        simpa [View.release, View.gone, ht] using hslots
      · simpa [View.release, View.gone, ht, ha] using hslots
  online := honline
  data t d hd := by
    obtain ⟨ho, hp⟩ := h.data t d hd
    refine ⟨ho, ?_⟩
    by_cases ht : t = sid
    · simp [ht]
    · simpa [ht] using hp
  waiting t hc hd := by
    by_cases ht : t = sid
    · subst ht
      simp [View.release, View.gone] at hc
    · simp only [View.release, View.gone, Function.update_of_ne ht] at hc ⊢
      exact h.waiting t hc hd
  known t hp := by
    by_cases ht : t = sid
    · exact ⟨address, ht ▸ howner⟩
    · exact h.known t (by simpa [ht] using hp)

theorem update_none_of_eq_none (h : pending sid = none) : Function.update pending sid none = pending := by
  rw [← h, Function.update_eq_self]

theorem online_of_leaves (h : Tables v pending)
    (hleaves : address ∈ v.online → ((v.slots address).erase sid).Nonempty) :
    ∀ a ∈ v.online, (Function.update v.slots address ((v.slots address).erase sid) a).Nonempty := by
  intro a ha
  by_cases haddr : a = address
  · subst haddr
    simpa using hleaves ha
  · simpa [haddr] using h.online a ha

theorem Tables.offline (h : Tables v pending) (address : String) :
    Tables (v.offline address) pending :=
  ⟨h.slots, fun a ha => h.online a (Finset.mem_of_mem_erase ha), h.data, h.waiting, h.known⟩

theorem Tables.online_insert (h : Tables v pending) (ha : (v.slots address).Nonempty) :
    Tables { v with online := insert address v.online } pending := by
  refine ⟨h.slots, fun a hmem => ?_, h.data, h.waiting, h.known⟩
  obtain rfl | hmem := Finset.mem_insert.mp hmem
  · exact ha
  · exact h.online a hmem

theorem Tables.depart (h : Tables v pending) (howner : v.owner sid = some data.address)
    (hparting : data.role = .lp ∨
      (data.address ∈ v.online → ((v.slots data.address).erase sid).Nonempty)) :
    Tables (((v.gone sid).release sid data.address).absent data) (Function.update pending sid none) := by
  rw [View.absent]
  split
  next hlast =>
    apply Tables.leave (v := v.offline data.address) (h.offline _) howner
    intro a ha
    have hne : a ≠ data.address := Finset.ne_of_mem_erase ha
    simpa [View.offline, hne] using h.online a (Finset.mem_of_mem_erase ha)
  next hlast =>
    refine h.leave howner (online_of_leaves h fun hmem => ?_)
    obtain hlp | hleaves := hparting
    · rw [Finset.nonempty_iff_ne_empty]
      intro hempty
      exact hlast ⟨hlp, by simpa [View.release, View.gone] using hempty⟩
    · exact hleaves hmem

theorem Tables.gone (h : Tables v pending) (hp : pending sid ≠ none) :
    Tables (v.gone sid) pending where
  slots a t := by
    by_cases ht : t = sid
    · subst ht
      simpa [View.gone, hp] using h.slots a t
    · simpa [View.gone, ht] using h.slots a t
  online := h.online
  data := h.data
  waiting t hc hd := by
    by_cases ht : t = sid
    · exact ht ▸ hp
    · exact h.waiting t (by simpa [View.gone, ht] using hc) hd
  known := h.known

theorem Tables.disconnect (h : Tables (view s) pending) (hparting : Parting s sid) :
    Tables (view (disconnect s sid)) pending := by
  cases hc : s.connected sid with
  | false =>
    rw [view_disconnect_of_gone hc]
    exact h
  | true =>
    cases hdata : s.data sid with
    | none =>
      rw [view_disconnect_none hc hdata]
      exact h.gone (h.waiting sid hc hdata)
    | some data =>
      obtain ⟨howner, hpending⟩ := h.data sid data hdata
      rw [view_disconnect hc hdata]
      have hdepart := h.depart howner (hparting hc data hdata)
      rw [update_none_of_eq_none hpending] at hdepart
      exact hdepart

theorem Tables.setData (h : Tables v pending) (howner : v.owner sid = some data.address)
    (hp : pending sid = none) : Tables (v.setData sid data) pending where
  slots := h.slots
  online := h.online
  data t d hd := by
    by_cases ht : t = sid
    · subst ht
      obtain rfl : data = d := by simpa [View.setData] using hd
      exact ⟨howner, hp⟩
    · exact h.data t d (by simpa [View.setData, ht] using hd)
  waiting t hc hd := by
    by_cases ht : t = sid
    · subst ht
      simp [View.setData] at hd
    · exact h.waiting t hc (by simpa [View.setData, ht] using hd)
  known := h.known

theorem Tables.settle (h : Tables v pending) (howner : v.owner sid = some data.address)
    (hc : v.connected sid = true) : Tables (v.setData sid data) (Function.update pending sid none) where
  slots a t := by
    by_cases ht : t = sid
    · subst ht
      simpa [View.setData, hc] using h.slots a t
    · simpa [View.setData, ht] using h.slots a t
  online := h.online
  data t d hd := by
    by_cases ht : t = sid
    · subst ht
      obtain rfl : data = d := by simpa [View.setData] using hd
      exact ⟨howner, by simp⟩
    · have hold := h.data t d (by simpa [View.setData, ht] using hd)
      simpa [View.setData, ht] using hold
  waiting t hc' hd := by
    by_cases ht : t = sid
    · subst ht
      simp [View.setData] at hd
    · simpa [ht] using h.waiting t hc' (by simpa [View.setData, ht] using hd)
  known t hp := by
    by_cases ht : t = sid
    · exact ⟨data.address, ht ▸ howner⟩
    · exact h.known t (by simpa [ht] using hp)

theorem gone_of_not_connected (h : v.connected sid = false) : v.gone sid = v := by
  ext1
  · rfl
  · exact Function.update_eq_self_iff.mpr h.symm
  · rfl
  · rfl
  · rfl

theorem Tables.data_none (h : Tables v pending) (hp : pending sid ≠ none) : v.data sid = none := by
  cases hd : v.data sid with
  | none => rfl
  | some data => exact absurd (h.data sid data hd).2 hp

theorem Tables.refuse (h : Tables (view s) pending) (hp : pending sid ≠ none)
    (howner : owner s sid = some address) (hleaves : Leaves s sid address) :
    Tables (view (Gateway.disconnect (releaseSocketSlot s sid address) sid))
      (Function.update pending sid none) := by
  have hleft := h.leave howner (online_of_leaves h hleaves)
  have hdata : (releaseSocketSlot s sid address).data sid = none := by
    have hnone := h.data_none hp
    simpa [State.data, view] using hnone
  cases hc : s.connected sid with
  | false =>
    have hc' : (releaseSocketSlot s sid address).connected sid = false := by
      simpa [State.connected] using hc
    have hgone : (view s).gone sid = view s := gone_of_not_connected hc
    rw [view_disconnect_of_gone hc', view_release]
    rw [hgone] at hleft
    exact hleft
  | true =>
    have hc' : (releaseSocketSlot s sid address).connected sid = true := by
      simpa [State.connected] using hc
    rw [view_disconnect_none hc' hdata, view_release]
    exact hleft

theorem absent_setData :
    (v.setData sid data).absent data = (v.absent data).setData sid data := by
  have hslots : (v.setData sid data).slots = v.slots := rfl
  rw [View.absent, View.absent, hslots]
  split <;> rfl

theorem owner_absent : (v.absent data).owner = v.owner := by
  rw [View.absent]
  split <;> rfl

theorem Tables.expired (h : Tables (view s) pending) (howner : owner s sid = some data.address)
    (hleaves : (s.connected sid = true ∧ data.role = .lp) ∨ Leaves s sid data.address) :
    Tables (view (Gateway.disconnect
        (releaseSocketSlot (Gateway.setData s sid data) sid data.address) sid))
      (Function.update pending sid none) := by
  have hset : view (releaseSocketSlot (Gateway.setData s sid data) sid data.address) =
      ((view s).setData sid data).release sid data.address := by
    rw [view_release, view_setData data (by simp [howner])]
  have hdata : (releaseSocketSlot (Gateway.setData s sid data) sid data.address).data sid = some data := by
    have hd : (((view s).setData sid data).release sid data.address).data sid = some data := by
      simp [View.release, View.setData]
    rw [← hset] at hd
    exact hd
  have hconnected : (releaseSocketSlot (Gateway.setData s sid data) sid data.address).connected sid =
      s.connected sid := congrFun (congrArg View.connected hset) sid
  cases hc : s.connected sid with
  | false =>
    have hleaves' : Leaves s sid data.address := by simpa [hc] using hleaves
    have hleft := h.leave howner (online_of_leaves h hleaves')
    have hgone : (view s).gone sid = view s := gone_of_not_connected hc
    rw [hgone] at hleft
    rw [view_disconnect_of_gone (hconnected.trans hc), hset]
    exact hleft.setData howner (by simp)
  | true =>
    have hparting : data.role = .lp ∨ Leaves s sid data.address := hleaves.imp_left And.right
    have htwice : ((((view s).setData sid data).release sid data.address).gone sid).release sid
        data.address = (((view s).gone sid).release sid data.address).setData sid data := by
      ext1 <;> simp [View.release, View.setData, View.gone]
    rw [view_disconnect (hconnected.trans hc) hdata, hset, htwice, absent_setData]
    refine (h.depart howner hparting).setData ?_ (by simp)
    rw [owner_absent]
    exact howner

theorem owner_none (h : s.sockets sid = none) : owner s sid = none := by
  simp [owner, h]

theorem Tables.fresh (h : Tables (view s) pending) (hs : s.sockets sid = none) :
    (∀ a, sid ∉ s.socketSet a) ∧ pending sid = none := by
  constructor
  · intro a hmem
    obtain ⟨howner, -⟩ := (h.slots a sid).mp hmem
    exact absurd ((owner_none hs).symm.trans howner) (by simp)
  · by_contra hp
    obtain ⟨a, ha⟩ := h.known sid hp
    exact absurd ((owner_none hs).symm.trans ha) (by simp)

def View.enter (v : View) (sid : SocketId) (sub : Option String) : View :=
  { v with
    owner := Function.update v.owner sid sub
    connected := Function.update v.connected sid true
    data := Function.update v.data sid none }

theorem view_entered (s : State) (sid : SocketId) (token : Option Payload)
    (attempts : String → Option Attempts) :
    view (entered s sid token attempts) = (view s).enter sid (token.bind (·.sub)) := by
  ext1
  · funext t
    by_cases ht : t = sid
    · subst ht
      simp [view, owner, entered, View.enter]
    · simp [view, owner, entered, View.enter, ht]
  · funext t
    by_cases ht : t = sid
    · subst ht
      simp [view, State.connected, entered, View.enter]
    · simp [view, State.connected, entered, View.enter, ht]
  · funext t
    by_cases ht : t = sid
    · subst ht
      simp [view, State.data, entered, View.enter]
    · simp [view, State.data, entered, View.enter, ht]
  · rfl
  · rfl

theorem Tables.turnedAway (h : Tables (view s) pending) (hs : s.sockets sid = none)
    (token : Option Payload) (attempts : String → Option Attempts) :
    Tables (view (Gateway.disconnect (entered s sid token attempts) sid)) pending := by
  obtain ⟨hslots, hp⟩ := h.fresh hs
  have hview := view_entered s sid token attempts
  have hc : (entered s sid token attempts).connected sid = true := by simp [entered, State.connected]
  have hd : (entered s sid token attempts).data sid = none := by simp [entered, State.data]
  rw [view_disconnect_none hc hd, hview]
  refine ⟨fun a t => ?_, h.online, fun t d hd => ?_, fun t hc hd => ?_, fun t hp' => ?_⟩
  all_goals
    by_cases ht : t = sid
  · subst ht
    simpa [View.enter, View.gone, hp, view] using hslots a
  · simpa [View.enter, View.gone, ht] using h.slots a t
  · subst ht
    simp [View.enter, View.gone] at hd
  · simpa [View.enter, View.gone, ht] using h.data t d (by simpa [View.enter, View.gone, ht] using hd)
  · subst ht
    simp [View.enter, View.gone] at hc
  · refine h.waiting t ?_ ?_
    · simpa [View.enter, View.gone, ht] using hc
    · simpa [View.enter, View.gone, ht] using hd
  · exact absurd hp (ht ▸ hp')
  · simpa [View.enter, View.gone, ht] using h.known t hp'

theorem Tables.reserved (h : Tables (view s) pending) (hs : s.sockets sid = none)
    {token : Option Payload} (attempts : String → Option Attempts)
    (htoken : token.bind (·.sub) = some address) (pid : Pid) :
    Tables (view (reserve (entered s sid token attempts) sid address))
      (Function.update pending sid (some pid)) := by
  obtain ⟨hslots, hp⟩ := h.fresh hs
  have hview : view (reserve (entered s sid token attempts) sid address) =
      { (view s).enter sid (some address) with
        slots := Function.update s.socketSet address (insert sid (s.socketSet address)) } := by
    rw [← htoken, ← view_entered _ _ _ attempts]
    ext1
    · rfl
    · rfl
    · rfl
    · funext a
      by_cases ha : a = address
      · subst ha
        simp [view, reserve, State.socketSet, entered]
      · simp [view, reserve, State.socketSet, entered, ha]
    · rfl
  rw [hview]
  refine ⟨fun a t => ?_, fun a ha => ?_, fun t d hd => ?_, fun t hc hd => ?_, fun t hp' => ?_⟩
  · by_cases ht : t = sid
    · subst ht
      by_cases ha : a = address
      · subst ha
        simp [View.enter]
      · simp [View.enter, ha, hslots, Ne.symm ha]
    · have hold := h.slots a t
      by_cases ha : a = address
      · subst ha
        simpa [View.enter, ht, view] using hold
      · simpa [View.enter, ht, ha, view] using hold
  · by_cases haddr : a = address
    · subst haddr
      simp
    · simpa [haddr, view] using h.online a ha
  · by_cases ht : t = sid
    · subst ht
      simp [View.enter] at hd
    · simpa [View.enter, ht] using h.data t d (by simpa [View.enter, ht] using hd)
  · by_cases ht : t = sid
    · simp [ht]
    · simp only [View.enter, Function.update_of_ne ht] at hc hd ⊢
      exact h.waiting t hc hd
  · by_cases ht : t = sid
    · exact ⟨address, by simp [View.enter, ht]⟩
    · simpa [View.enter, ht] using h.known t (by simpa [ht] using hp')

structure Persists (v v' : View) : Prop where
  owner : ∀ sid, v.owner sid ≠ none → v'.owner sid = v.owner sid
  data : ∀ sid, v.data sid ≠ none → v'.data sid ≠ none

theorem Persists.of_eq {v v' : View} (howner : v'.owner = v.owner) (hdata : v'.data = v.data) :
    Persists v v' :=
  ⟨fun _ _ => by rw [howner], fun _ h => by rwa [hdata]⟩

theorem Persists.trans {v v' v'' : View} (h : Persists v v') (h' : Persists v' v'') :
    Persists v v'' where
  owner sid hs := by
    have hs' := h.owner sid hs
    rw [h'.owner sid (hs' ▸ hs), hs']
  data sid hs := h'.data sid (h.data sid hs)

theorem persists_release : Persists (view s) (view (releaseSocketSlot s sid address)) := by
  rw [view_release]
  exact .of_eq rfl rfl

theorem persists_disconnect : Persists (view s) (view (disconnect s sid)) := by
  cases hc : s.connected sid with
  | false =>
    rw [view_disconnect_of_gone hc]
    exact .of_eq rfl rfl
  | true =>
    cases hdata : s.data sid with
    | none =>
      rw [view_disconnect_none hc hdata]
      exact .of_eq rfl rfl
    | some data =>
      rw [view_disconnect hc hdata, View.absent]
      split <;> exact .of_eq rfl rfl

theorem persists_setData (data : SocketData) : Persists (view s) (view (setData s sid data)) where
  owner t _ := owner_updateSocket fun _ => rfl
  data t h := by
    simp only [view, State.data, setData, sockets_updateSocket] at h ⊢
    split
    next =>
      cases hk : s.sockets t with
      | none => simp [hk] at h
      | some k => simp
    next => exact h

theorem persists_entered {token : Option Payload} (attempts : String → Option Attempts)
    (hs : s.sockets sid = none) : Persists (view s) (view (entered s sid token attempts)) := by
  rw [view_entered]
  refine ⟨fun t ht => ?_, fun t ht => ?_⟩
  · have hne : t ≠ sid := by
      rintro rfl
      exact ht (owner_none hs)
    simp [View.enter, hne]
  · have hne : t ≠ sid := by
      rintro rfl
      exact ht (by simp [view, State.data, hs])
    simpa [View.enter, hne] using ht

theorem persists_effect {e : Effect} (hp : permits s e) :
    Persists (view s) (view (effect e fails s).1) := by
  cases e with
  | accept sid token =>
    obtain ⟨attempts, h | ⟨address, cls, expiresAt, -, -, h⟩⟩ := accept_cases s sid token
    · simp only [effect, h]
      exact (persists_entered _ hp).trans persists_disconnect
    · simp only [effect, h]
      exact (persists_entered attempts hp).trans (.of_eq rfl rfl)
  | attach sid data expiresAt =>
    obtain ⟨-, h⟩ | ⟨-, timers, h⟩ := attach_cases s sid data expiresAt
    · simp only [effect, h]
      exact ((persists_setData data).trans persists_release).trans persists_disconnect
    · simp only [effect, h, view_join]
      exact (persists_setData data).trans (.of_eq rfl rfl)
  | refuse sid address => exact persists_release.trans persists_disconnect
  | disconnect sid => exact persists_disconnect
  | setData sid data => exact persists_setData data
  | join sid room =>
    simp only [effect, view_join]
    exact .of_eq rfl rfl
  | leave sid room =>
    simp only [effect, view_leave]
    exact .of_eq rfl rfl
  | beginJoin sid =>
    simp only [effect, beginJoin]
    split
    next => exact .of_eq rfl rfl
    next => split <;> exact .of_eq rfl rfl
  | heartbeat address => cases fails <;> exact .of_eq rfl rfl
  | findLink | findLp | resolved | online | offline | emitError | findOrder => exact .of_eq rfl rfl

theorem persists_moved {m : Move} : Persists (view s) (view (moved s m)) := by
  cases m with
  | drop sid => exact persists_disconnect
  | expire sid =>
    exact persists_disconnect (s := { s with expiryTimers := Function.update s.expiryTimers sid none })
  | bumpLpPresence fails => cases fails <;> exact .of_eq rfl rfl
  | pruneConnectAttempts | tick | setLink | setLp | setOrder => exact .of_eq rfl rfl

theorem Tables.moved {m : Move} (h : Tables (view s) pending) (hfair : Fair s m) :
    Tables (view (moved s m)) pending := by
  cases m with
  | drop sid => exact h.disconnect hfair
  | expire sid =>
    exact Tables.disconnect (s := { s with expiryTimers := Function.update s.expiryTimers sid none })
      h hfair
  | bumpLpPresence fails => cases fails <;> exact h
  | pruneConnectAttempts | tick | setLink | setLp | setOrder => exact h

/-- Stretches that touch neither slots nor data, except for taking a socket away. -/
def Plain : Effect → Prop
  | .accept _ _ | .attach _ _ _ | .refuse _ _ | .beginJoin _ | .setData _ _ => False
  | _ => True

theorem Tables.plain {e : Effect} (h : Tables (view s) pending) (he : Plain e)
    (hcareful : Careful s e) : Tables (view (effect e fails s).1) pending := by
  cases e with
  | accept | attach | refuse | beginJoin | setData => exact he.elim
  | disconnect sid => exact h.disconnect hcareful
  | join sid room =>
    simp only [effect, view_join]
    exact h
  | leave sid room =>
    simp only [effect, view_leave]
    exact h
  | online address => exact h.online_insert hcareful
  | offline address => exact h.offline address
  | heartbeat address => cases fails <;> exact h
  | findLink | findLp | resolved | emitError | findOrder => exact h

def Bounded (s : State) : Prop := ∀ a, (s.socketSet a).card ≤ maxSocketsPerAddress

theorem Bounded.of_subset {s' : State} (h : Bounded s) (hs : ∀ a, s'.socketSet a ⊆ s.socketSet a) :
    Bounded s' := fun a => (Finset.card_le_card (hs a)).trans (h a)

theorem slots_release : ((view s).release sid address).slots a ⊆ s.socketSet a := by
  by_cases ha : a = address
  · subst ha
    simp only [View.release, Function.update_self]
    exact Finset.erase_subset _ _
  · simp only [View.release, Function.update_of_ne ha]
    exact Finset.Subset.refl _

theorem slots_absent : (v.absent data).slots = v.slots := by
  rw [View.absent]
  split <;> rfl

theorem slots_releaseSocketSlot : (releaseSocketSlot s sid address).socketSet a ⊆ s.socketSet a := by
  change (view (releaseSocketSlot s sid address)).slots a ⊆ _
  rw [view_release]
  exact slots_release

theorem slots_disconnect : (disconnect s sid).socketSet a ⊆ s.socketSet a := by
  change (view (disconnect s sid)).slots a ⊆ _
  cases hc : s.connected sid with
  | false =>
    rw [view_disconnect_of_gone hc]
    exact Finset.Subset.refl _
  | true =>
    cases hdata : s.data sid with
    | none =>
      rw [view_disconnect_none hc hdata]
      exact Finset.Subset.refl _
    | some data =>
      rw [view_disconnect hc hdata, slots_absent]
      exact slots_release

/-- Slots are added in one place only, and never beyond the limit. -/
theorem Bounded.effect {e : Effect} (h : Bounded s) : Bounded (effect e fails s).1 := by
  cases e with
  | accept sid token =>
    obtain ⟨attempts, hacc | ⟨address, cls, expiresAt, -, hroom, hacc⟩⟩ := accept_cases s sid token
    · simp only [Gateway.effect, hacc]
      have hentered : Bounded (entered s sid token attempts) := h
      exact hentered.of_subset fun a => slots_disconnect
    · simp only [Gateway.effect, hacc]
      intro a
      by_cases ha : a = address
      · subst ha
        have hslots : (reserve (entered s sid token attempts) sid a).socketSet a =
            insert sid (s.socketSet a) := by
          simp [reserve, State.socketSet, entered]
        rw [hslots]
        exact (Finset.card_insert_le _ _).trans hroom
      · have hslots : (reserve (entered s sid token attempts) sid address).socketSet a = s.socketSet a := by
          simp [reserve, State.socketSet, entered, ha]
        rw [hslots]
        exact h a
  | attach sid data expiresAt =>
    have hset : Bounded (setData s sid data) := h
    obtain ⟨-, heq⟩ | ⟨-, timers, heq⟩ := attach_cases s sid data expiresAt
    · simp only [Gateway.effect, heq]
      exact (hset.of_subset fun a => slots_releaseSocketSlot).of_subset fun a => slots_disconnect
    · simp only [Gateway.effect, heq]
      exact hset
  | refuse sid address =>
    exact (h.of_subset fun a => slots_releaseSocketSlot).of_subset fun a => slots_disconnect
  | disconnect sid => exact h.of_subset fun a => slots_disconnect
  | beginJoin sid =>
    simp only [Gateway.effect, beginJoin]
    split
    next => exact h
    next => split <;> exact h
  | heartbeat address => cases fails <;> exact h
  | setData | join | leave | findLink | findLp | resolved | online | offline | emitError | findOrder =>
    exact h

theorem Bounded.moved {m : Move} (h : Bounded s) : Bounded (moved s m) := by
  cases m with
  | drop sid => exact h.of_subset fun a => slots_disconnect
  | expire sid =>
    have htimed : Bounded { s with expiryTimers := Function.update s.expiryTimers sid none } := h
    exact htimed.of_subset fun a => slots_disconnect
  | bumpLpPresence fails => cases fails <;> exact h
  | pruneConnectAttempts | tick | setLink | setLp | setOrder => exact h

end Lolipay.Coordinator.Accounts

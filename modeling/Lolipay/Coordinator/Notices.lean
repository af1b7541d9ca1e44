import Lolipay.Coordinator.Orders

namespace Lolipay.Coordinator.Notices

open Lolipay.Ledger.Invocation Lolipay.Escrow.Types Lolipay.Coordinator.Orders

inductive Party where
  | user
  | lp
  deriving DecidableEq, Repr

structure Msg where
  title : String
  body : String
  deriving DecidableEq, Repr

/-- The texts for the statuses that an order takes over from its trade. -/
def messageFor (flow : Flow) (status : Status) (role : Party) (settledAt : Option ℕ) : Msg :=
  match status, flow, role with
  | .funded, .topUp, .user => ⟨"USDC locked", "The merchant locked the USDC — pay now to receive it."⟩
  | .funded, .topUp, .lp => ⟨"You locked USDC", "USDC is locked in escrow for your order."⟩
  | .funded, .withdraw, .user =>
    ⟨"USDC locked", "Your USDC is locked — waiting for the merchant to pay."⟩
  | .funded, .withdraw, .lp =>
    ⟨"Seller locked USDC", "Pay the seller, then mark it paid to receive the USDC."⟩
  | .fiatPaid, .topUp, .user =>
    ⟨"Payment marked", "Waiting for the merchant to release your USDC."⟩
  | .fiatPaid, .topUp, .lp =>
    ⟨"Marked as paid on chain", "This order is now marked as paid on chain, so it can only be released or settled through a dispute. If the rupiah is in your account and you have not released yet, release it from Assignments. If it is not, open a dispute there."⟩
  | .fiatPaid, .withdraw, .user =>
    ⟨"Merchant paid", "Confirm you received it to release the USDC."⟩
  | .fiatPaid, .withdraw, .lp =>
    ⟨"You marked paid", "Waiting for the seller to confirm & release."⟩
  | .released, .topUp, .user =>
    ⟨"USDC released 🎉", "Your USDC has been released. Trade complete."⟩
  | .released, .topUp, .lp => ⟨"Trade complete", "The USDC was released to the buyer."⟩
  | .released, .withdraw, .user =>
    ⟨"Trade complete", "Your USDC was released to the merchant."⟩
  | .released, .withdraw, .lp =>
    ⟨"USDC released 🎉", "The USDC was released to you. Trade complete."⟩
  | .refunded, .topUp, .user =>
    ⟨"Order refunded", "The USDC was returned to the merchant. You were not charged, and you can still open a dispute on this order for a short time."⟩
  | .refunded, .topUp, .lp =>
    ⟨"Order refunded", "The USDC you locked was returned to your wallet in full. You can still open a dispute on this order for a short time."⟩
  | .refunded, .withdraw, .user =>
    ⟨"Order refunded", "Your USDC was returned to your wallet in full. You can still open a dispute on this order for a short time."⟩
  | .refunded, .withdraw, .lp =>
    ⟨"Order refunded", "The USDC was returned to the seller and it did not come to you. If you already sent the rupiah for this order, open a dispute from your assignments now — the window to do it is short."⟩
  | .disputed, _, _ =>
    if settledAt.isSome then
      ⟨"Post-settlement dispute opened", "A dispute was raised after this order settled — it is under review by the platform."⟩
    else ⟨"Dispute opened", "This order is under review by the platform."⟩

structure Notification where
  id : ℕ
  address : Address
  orderId : OrderId
  event : Status
  msg : Msg
  deriving DecidableEq, Repr

/-- Whom a mail goes to. The ids are random, so a person's and a provider's never coincide. -/
inductive Recipient where
  | person (id : PersonId)
  | lp (id : LpId)
  deriving DecidableEq, Repr

/-- The dedupe key of a mail, `email:order:status:recipient`. -/
structure DedupeKey where
  orderId : OrderId
  status : Status
  recipient : Recipient
  deriving DecidableEq, Repr

structure Mail where
  id : ℕ
  dedupeKey : DedupeKey
  msg : Msg
  deriving DecidableEq, Repr

structure Person where
  id : PersonId
  email : Option String
  deriving DecidableEq, Repr

/-- The two tables, whose rows get ever new ids, and the addresses on file: the
person behind a wallet with an active link, and a provider's alert address. -/
structure Mailroom where
  notifications : List Notification
  outbox : List Mail
  lookupPerson : Address → Option Person
  alertEmail : LpId → Option String
  nextId : ℕ

variable (m : Mailroom) (id : OrderId) (order : Order) (status : Status)

def Mailroom.told (address : Address) : Prop :=
  ∃ n ∈ m.notifications, n.address = address ∧ n.orderId = id ∧ n.event = status

instance (address : Address) : Decidable (m.told id status address) :=
  inferInstanceAs (Decidable (∃ n ∈ m.notifications, _))

def Mailroom.queued (key : DedupeKey) : Prop := ∃ mail ∈ m.outbox, mail.dedupeKey = key

instance (key : DedupeKey) : Decidable (m.queued key) :=
  inferInstanceAs (Decidable (∃ mail ∈ m.outbox, _))

/-- One row of `createMany` with `skipDuplicates`. -/
def createNotification (address : Address) (msg : Msg) : Mailroom :=
  if m.told id status address then m
  else
    { m with
      notifications := m.notifications ++ [⟨m.nextId, address, id, status, msg⟩]
      nextId := m.nextId + 1 }

def enqueue (key : DedupeKey) (msg : Msg) : Mailroom :=
  if m.queued key then m
  else { m with outbox := m.outbox ++ [⟨m.nextId, key, msg⟩], nextId := m.nextId + 1 }

/-- The rows of an announcement. A provider with the user's own wallet gets none. -/
def rowsFor : List (Address × Msg) :=
  (order.userAddress, messageFor order.flow status .user order.settledAt) ::
    match order.lpWallet with
    | none => []
    | some lp =>
      if lp = order.userAddress then []
      else [(lp, messageFor order.flow status .lp order.settledAt)]

/-- Whom the mail about a row goes to, if an address is on file. -/
def recipientOf (address : Address) : Option Recipient :=
  if order.lpWallet = some address then
    (order.lpId.filter fun lpId => (m.alertEmail lpId).isSome).map .lp
  else
    ((m.lookupPerson address).filter fun person => person.email.isSome).map fun person =>
      .person person.id

def post (row : Address × Msg) : Mailroom :=
  match recipientOf m order row.1 with
  | none => m
  | some recipient => enqueue m ⟨id, status, recipient⟩ row.2

def announce : Mailroom :=
  let m := (rowsFor order status).foldl (fun m row => createNotification m id status row.1 row.2) m
  (rowsFor order status).foldl (fun m row => post m id order status row) m

/-- Whether one of the look-ups fails, `lookupPerson` for the user and
`lp.findUnique` for a provider that the order names; `throws` says for whom. -/
def lookupsThrow (throws : Address → Bool) : Bool :=
  (rowsFor order status).any fun row =>
    throws row.1 && (order.lpWallet ≠ some row.1 || order.lpId.isSome)

/-- The addresses are looked up first; without them there is no announcement. -/
def notifyOrderStatus (throws : Address → Bool) : Mailroom :=
  if lookupsThrow order status throws then m else announce m id order status

variable {m id order status} {m' : Mailroom} {address a : Address} {msg : Msg} {key key' : DedupeKey}

theorem told_createNotification {id' : OrderId} {status' : Status} :
    (createNotification m id status address msg).told id' status' a ↔
      m.told id' status' a ∨ (a = address ∧ id' = id ∧ status' = status) := by
  rw [createNotification]
  split
  next h =>
    refine ⟨.inl, ?_⟩
    rintro (h' | ⟨rfl, rfl, rfl⟩)
    · exact h'
    · exact h
  next =>
    simp only [Mailroom.told, List.mem_append, List.mem_singleton, or_and_right, exists_or,
      exists_eq_left]
    rw [eq_comm (a := address), eq_comm (a := id), eq_comm (a := status)]

theorem mem_createNotification {n : Notification}
    (h : n ∈ (createNotification m id status address msg).notifications) :
    n ∈ m.notifications ∨ ¬ m.told n.orderId n.event n.address := by
  rw [createNotification] at h
  split at h
  next => exact .inl h
  next hnot =>
    obtain h | h := List.mem_append.mp h
    · exact .inl h
    · obtain rfl := List.mem_singleton.mp h
      exact .inr hnot

theorem mem_createAll {n : Notification} (rows : List (Address × Msg))
    (h : n ∈ (rows.foldl (fun m row => createNotification m id status row.1 row.2) m).notifications) :
    n ∈ m.notifications ∨ ¬ m.told n.orderId n.event n.address := by
  induction rows generalizing m with
  | nil => exact .inl h
  | cons row rows ih =>
    obtain h | h := ih h
    · exact mem_createNotification h
    · exact .inr fun htold => h (told_createNotification.mpr (.inl htold))

theorem notifications_post {row : Address × Msg} :
    (post m id order status row).notifications = m.notifications := by
  rw [post]
  split
  next => rfl
  next =>
    rw [enqueue]
    split <;> rfl

theorem notifications_postAll (rows : List (Address × Msg)) :
    (rows.foldl (fun m row => post m id order status row) m).notifications = m.notifications := by
  induction rows generalizing m with
  | nil => rfl
  | cons row rows ih => exact ih.trans notifications_post

theorem mem_announce {n : Notification}
    (h : n ∈ (announce m id order status).notifications) :
    n ∈ m.notifications ∨ ¬ m.told n.orderId n.event n.address := by
  simp only [announce, notifications_postAll] at h
  exact mem_createAll _ h

theorem told_createAll {id' : OrderId} {status' : Status} (rows : List (Address × Msg)) :
    (rows.foldl (fun m row => createNotification m id status row.1 row.2) m).told id' status' a ↔
      m.told id' status' a ∨ (a ∈ rows.map (·.1) ∧ id' = id ∧ status' = status) := by
  induction rows generalizing m with
  | nil => simp
  | cons row rows ih =>
    rw [List.foldl_cons, ih, told_createNotification, List.map_cons, List.mem_cons]
    tauto

theorem told_announce {id' : OrderId} {status' : Status} :
    (announce m id order status).told id' status' a ↔
      m.told id' status' a ∨
        (a ∈ (rowsFor order status).map (·.1) ∧ id' = id ∧ status' = status) := by
  rw [← told_createAll (rowsFor order status)]
  simp only [Mailroom.told, announce, notifications_postAll]

theorem queued_post {row : Address × Msg} (h : (post m id order status row).queued key) :
    m.queued key ∨ ∃ recipient, recipientOf m order row.1 = some recipient ∧
      key = ⟨id, status, recipient⟩ := by
  rw [post] at h
  split at h
  next => exact .inl h
  next recipient hr =>
    rw [enqueue] at h
    split at h
    next => exact .inl h
    next =>
      obtain ⟨mail, hmail, rfl⟩ := h
      obtain hmail | hmail := List.mem_append.mp hmail
      · exact .inl ⟨mail, hmail, rfl⟩
      · obtain rfl := List.mem_singleton.mp hmail
        exact .inr ⟨recipient, hr, rfl⟩

theorem outbox_createAll (rows : List (Address × Msg)) :
    (rows.foldl (fun m row => createNotification m id status row.1 row.2) m).outbox = m.outbox := by
  induction rows generalizing m with
  | nil => rfl
  | cons row rows ih =>
    apply ih.trans
    dsimp only
    rw [createNotification]
    split <;> rfl

theorem queued_announce (h : (announce m id order status).queued key) :
    m.queued key ∨ (key.orderId = id ∧ key.status = status) := by
  have hrows (rows : List (Address × Msg)) {m : Mailroom}
      (h : (rows.foldl (fun m row => post m id order status row) m).queued key) :
      m.queued key ∨ (key.orderId = id ∧ key.status = status) := by
    induction rows generalizing m with
    | nil => exact .inl h
    | cons row rows ih =>
      obtain h | h := ih h
      · obtain h | ⟨recipient, -, rfl⟩ := queued_post h
        · exact .inl h
        · exact .inr ⟨rfl, rfl⟩
      · exact .inr h
  obtain h | h := hrows _ h
  · left
    simpa only [Mailroom.queued, outbox_createAll] using h
  · exact .inr h

/-- The text of a dispute is the same for both parties. -/
def disputeText (settledAt : Option ℕ) : Msg := messageFor .topUp .disputed .user settledAt

theorem messageFor_disputed (flow : Flow) (role : Party) (settledAt : Option ℕ) :
    messageFor flow .disputed role settledAt = disputeText settledAt := rfl

/-- One wallet learns of a dispute: there is a new notification for it and, with
an address on file, a new mail. -/
structure Learns (before after : Mailroom) (id : OrderId) (order : Order) (address : Address) : Prop where
  notified : ∃ n ∈ after.notifications, n ∉ before.notifications ∧ n.address = address ∧
    n.orderId = id ∧ n.event = .disputed ∧ n.msg = disputeText order.settledAt
  mailed : ∀ recipient, recipientOf before order address = some recipient →
    ∃ mail ∈ after.outbox, mail ∉ before.outbox ∧ mail.dedupeKey = ⟨id, .disputed, recipient⟩ ∧
      mail.msg = disputeText order.settledAt

theorem not_learns_of_told (htold : m.told id .disputed address) :
    ¬ Learns m (announce m id order .disputed) id order address := by
  rintro ⟨⟨n, hmem, hnew, rfl, rfl, hevent, -⟩, -⟩
  obtain hold | hnot := mem_announce hmem
  · exact hnew hold
  · exact hnot (hevent ▸ htold)

theorem createNotification_adds (h : ¬ m.told id status address) :
    ⟨m.nextId, address, id, status, msg⟩ ∈ (createNotification m id status address msg).notifications := by
  simp [createNotification, h]

theorem enqueue_adds (h : ¬ m.queued key) :
    ⟨m.nextId, key, msg⟩ ∈ (enqueue m key msg).outbox := by
  simp [enqueue, h]

theorem notifications_subset_create {n : Notification} (h : n ∈ m.notifications) :
    n ∈ (createNotification m id status address msg).notifications := by
  rw [createNotification]
  split
  next => exact h
  next => exact List.mem_append_left _ h

theorem outbox_subset_post {row : Address × Msg} {mail : Mail} (h : mail ∈ m.outbox) :
    mail ∈ (post m id order status row).outbox := by
  rw [post]
  split
  next => exact h
  next =>
    rw [enqueue]
    split
    next => exact h
    next => exact List.mem_append_left _ h

theorem post_adds {recipient : Recipient} (msg : Msg) (hr : recipientOf m order address = some recipient)
    (h : ¬ m.queued ⟨id, status, recipient⟩) :
    ∃ mail ∈ (post m id order status (address, msg)).outbox,
      mail.dedupeKey = ⟨id, status, recipient⟩ ∧ mail.msg = msg := by
  refine ⟨⟨m.nextId, ⟨id, status, recipient⟩, msg⟩, ?_, rfl, rfl⟩
  simp only [post, hr]
  exact enqueue_adds h

section TwoWallets

variable {lp : Address}

theorem people_createNotification (m : Mailroom) (id : OrderId) (status : Status) (address : Address)
    (msg : Msg) : (createNotification m id status address msg).lookupPerson = m.lookupPerson ∧
      (createNotification m id status address msg).alertEmail = m.alertEmail := by
  rw [createNotification]
  split <;> exact ⟨rfl, rfl⟩

theorem people_post (m : Mailroom) (id : OrderId) (order : Order) (status : Status)
    (row : Address × Msg) :
    (post m id order status row).lookupPerson = m.lookupPerson ∧
      (post m id order status row).alertEmail = m.alertEmail := by
  rw [post]
  split
  next => exact ⟨rfl, rfl⟩
  next =>
    rw [enqueue]
    split <;> exact ⟨rfl, rfl⟩

theorem recipientOf_createNotification :
    recipientOf (createNotification m id status address msg) order a = recipientOf m order a := by
  obtain ⟨hp, ha⟩ := people_createNotification m id status address msg
  simp only [recipientOf, hp, ha]

theorem recipientOf_post {row : Address × Msg} :
    recipientOf (post m id order status row) order a = recipientOf m order a := by
  obtain ⟨hp, ha⟩ := people_post m id order status row
  simp only [recipientOf, hp, ha]

theorem queued_createNotification :
    (createNotification m id status address msg).queued key ↔ m.queued key := by
  rw [createNotification]
  split <;> exact .rfl

theorem recipientOf_ne (hlp : order.lpWallet = some lp) (hne : lp ≠ order.userAddress)
    {r r' : Recipient} (hr : recipientOf m order order.userAddress = some r)
    (hr' : recipientOf m order lp = some r') : r ≠ r' := by
  have hnot : order.lpWallet ≠ some order.userAddress := by simp [hlp, hne]
  simp only [recipientOf, if_neg hnot, Option.map_eq_some_iff] at hr
  simp only [recipientOf, if_pos hlp, Option.map_eq_some_iff] at hr'
  obtain ⟨_, -, rfl⟩ := hr
  obtain ⟨_, -, rfl⟩ := hr'
  simp

/-- The first announcement of a dispute reaches both wallets. -/
theorem both_learn (hlp : order.lpWallet = some lp) (hne : lp ≠ order.userAddress)
    (huser : ¬ m.told id .disputed order.userAddress) (hlpTold : ¬ m.told id .disputed lp)
    (hqueued : ∀ recipient, ¬ m.queued ⟨id, .disputed, recipient⟩) :
    Learns m (announce m id order .disputed) id order order.userAddress ∧
      Learns m (announce m id order .disputed) id order lp := by
  obtain ⟨text, htext⟩ : ∃ text, text = disputeText order.settledAt := ⟨_, rfl⟩
  obtain ⟨m₁, hm₁⟩ : ∃ m₁, m₁ = createNotification m id .disputed order.userAddress text := ⟨_, rfl⟩
  obtain ⟨m₂, hm₂⟩ : ∃ m₂, m₂ = createNotification m₁ id .disputed lp text := ⟨_, rfl⟩
  obtain ⟨m₃, hm₃⟩ : ∃ m₃, m₃ = post m₂ id order .disputed (order.userAddress, text) := ⟨_, rfl⟩
  have hnotify : announce m id order .disputed = post m₃ id order .disputed (lp, text) := by
    simp only [announce, rowsFor, hlp, if_neg hne, messageFor_disputed, List.foldl_cons,
      List.foldl_nil, hm₃, hm₂, hm₁, htext]
  have hkept : (announce m id order .disputed).notifications = m₂.notifications := by
    rw [hnotify, notifications_post, hm₃, notifications_post]
  have hm₁Told : ¬ m₁.told id .disputed lp := by
    rw [hm₁, told_createNotification]
    rintro (h | ⟨h, -⟩)
    · exact hlpTold h
    · exact hne h
  have hm₂Queued (recipient : Recipient) : ¬ m₂.queued ⟨id, .disputed, recipient⟩ := by
    rw [hm₂, queued_createNotification, hm₁, queued_createNotification]
    exact hqueued recipient
  have hrecipient (a : Address) : recipientOf m₂ order a = recipientOf m order a := by
    rw [hm₂, recipientOf_createNotification, hm₁, recipientOf_createNotification]
  have hnew (mail : Mail) (recipient : Recipient) (hkey : mail.dedupeKey = ⟨id, .disputed, recipient⟩) :
      mail ∉ m.outbox := fun hmem => hqueued recipient ⟨mail, hmem, hkey⟩
  constructor
  · refine ⟨⟨⟨m.nextId, order.userAddress, id, .disputed, text⟩, ?_, ?_, rfl, rfl, rfl, htext⟩,
      fun r hr => ?_⟩
    · rw [hkept, hm₂, hm₁]
      exact notifications_subset_create (createNotification_adds huser)
    · exact fun hmem => huser ⟨_, hmem, rfl, rfl, rfl⟩
    · obtain ⟨mail, hmem, hkey, hmsg⟩ := post_adds text ((hrecipient _).trans hr) (hm₂Queued r)
      refine ⟨mail, ?_, hnew mail r hkey, hkey, hmsg.trans htext⟩
      rw [hnotify, hm₃]
      exact outbox_subset_post hmem
  · refine ⟨⟨⟨m₁.nextId, lp, id, .disputed, text⟩, ?_, ?_, rfl, rfl, rfl, htext⟩, fun r hr => ?_⟩
    · rw [hkept, hm₂]
      exact createNotification_adds hm₁Told
    · exact fun hmem => hlpTold ⟨_, hmem, rfl, rfl, rfl⟩
    · have hm₃Queued : ¬ m₃.queued ⟨id, .disputed, r⟩ := by
        intro hq
        rw [hm₃] at hq
        obtain hq | ⟨r', hr', hkey⟩ := queued_post hq
        · exact hm₂Queued r hq
        · rw [hrecipient] at hr'
          exact recipientOf_ne hlp hne hr' hr (DedupeKey.mk.inj hkey).2.2.symm
      have hr₃ : recipientOf m₃ order lp = some r := by
        rw [hm₃, recipientOf_post, hrecipient, hr]
      obtain ⟨mail, hmem, hkey, hmsg⟩ := post_adds text hr₃ hm₃Queued
      exact ⟨mail, hnotify ▸ hmem, hnew mail r hkey, hkey, hmsg.trans htext⟩

end TwoWallets

end Lolipay.Coordinator.Notices

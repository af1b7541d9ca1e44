import Lolipay.Coordinator.Footprint
import Lolipay.Coordinator.Submission

namespace Lolipay.Coordinator.SubmissionStages

open Lolipay.Ledger.Storage Lolipay.Ledger.Invocation
open Lolipay.Async.Process Lolipay.Async.Scheduling Lolipay.Async.Stages
open Lolipay.Escrow.Types hiding Config
open Lolipay.Coordinator.Database hiding Effect Reply
open Lolipay.Coordinator.Orders Lolipay.Coordinator.Services Lolipay.Coordinator.Creation
open Lolipay.Coordinator.Footprint Lolipay.Coordinator.Submission

/-- How far a submission has come: it has read the row of its transaction when
that had no order, its creation is in a transaction of the database, has a row
there, has committed, the order is known, could not be linked, is taken care of. -/
inductive Phase where
  | reading
  | fresh (row : Sep24Transaction)
  | began (row : Sep24Transaction)
  | inserted (row : Sep24Transaction) (orderId : OrderId)
  | committed (row : Sep24Transaction) (orderId : OrderId)
  | named (row : Sep24Transaction) (orderId : OrderId)
  | refused (orderId : OrderId)
  | settled

/-- Only the call that finds nothing in flight in its process is `inside`. -/
inductive Stage where
  | outside
  | arriving (host : Host) (id : TxnId)
  | inside (host : Host) (id : TxnId) (phase : Phase)

/-- The phases in which the call may fail or be done. -/
def Phase.over : Phase → Bool
  | .reading | .fresh _ | .settled => true
  | _ => false

/-- The stages in which other services may be called. -/
def Stage.calm : Stage → Bool
  | .outside | .inside _ _ .reading | .inside _ _ (.fresh _) => true
  | _ => false

/-- The steps of a creation. -/
inductive Creating : Itinerary Database.Effect Database.Reply Phase
  | ask {f : Phase} (q : Query) (r : q.Reply) : Creating f (.ask q) r f
  | «begin» {row : Sep24Transaction} : Creating (.fresh row) .begin () (.began row)
  | rollback {row : Sep24Transaction} : Creating (.began row) .rollback () (.fresh row)
  | lock {row : Sep24Transaction} (key : LockKey) :
      Creating (.began row) (.lock key) () (.began row)
  | consume {row : Sep24Transaction} (id : QuoteId) (r : Option ℕ) :
      Creating (.began row) (.consumeQuote id) r (.began row)
  | collide {row : Sep24Transaction} (data : Placement) (needsRef : Bool) (r : Option Inserted) :
      Creating (.began row) (.createOrderRow data needsRef) r (.began row)
  | insert {row : Sep24Transaction} (data : Placement) (needsRef : Bool) (orderId : OrderId) :
      Creating (.began row) (.createOrderRow data needsRef) (some (.row orderId))
        (.inserted row orderId)
  | commit {row : Sep24Transaction} {orderId : OrderId} :
      Creating (.inserted row orderId) .commit true (.committed row orderId)
  | abort {row : Sep24Transaction} {orderId : OrderId} :
      Creating (.inserted row orderId) .commit false (.fresh row)

/-- The effects that change nothing. -/
def quiet : Effect → Bool
  | .wait _ _ _ | .findTransaction _ | .lookupPerson _ | .screenFor _ => true
  | _ => false

inductive Turn : Itinerary Effect Reply Stage
  | quiet {q : Stage} {e : Effect} (h : quiet e = true) (r : Reply e) : Turn q e r q
  | desk {q : Stage} (h : q.calm = true) (e : Database.Effect) (r : Database.Reply e) :
      Turn q (.desk e) r q
  | quote {q : Stage} (h : q.calm = true) (user : Address) (flow : Flow) (amount : ℕ)
      (r : Option QuoteId) : Turn q (.createQuote user flow amount) r q
  | enter {host : Host} {id : TxnId} :
      Turn (.arriving host id) (.enter host id) none (.inside host id .reading)
  | join {host : Host} {id : TxnId} (run : Pid) :
      Turn (.arriving host id) (.enter host id) (some run) .outside
  | read {host : Host} {id : TxnId} {row : Sep24Transaction} (h : row.orderId = none)
      (status : Option OrderStatus) :
      Turn (.inside host id .reading) (.findTransaction id) (some (row, status))
        (.inside host id (.fresh row))
  | within {host : Host} {id : TxnId} {f f' : Phase} {e : Database.Effect} {r : Database.Reply e}
      (h : Creating f e r f') : Turn (.inside host id f) (.within id e) r (.inside host id f')
  | name {host : Host} {id : TxnId} {row : Sep24Transaction} {orderId : OrderId} (r : OrderId) :
      Turn (.inside host id (.committed row orderId)) .created r (.inside host id (.named row r))
  | link {host : Host} {id : TxnId} {row : Sep24Transaction} {orderId : OrderId} :
      Turn (.inside host id (.named row orderId)) (.link id orderId row.stellarAccount) 1
        (.inside host id .settled)
  | refuse {host : Host} {id : TxnId} {row : Sep24Transaction} {orderId : OrderId} (n : ℕ)
      (h : n ≠ 1) : Turn (.inside host id (.named row orderId))
        (.link id orderId row.stellarAccount) n (.inside host id (.refused orderId))
  | undo {host : Host} {id : TxnId} {orderId : OrderId} (n : ℕ) :
      Turn (.inside host id (.refused orderId)) (.undo orderId) n (.inside host id .settled)
  | leave {host : Host} {id : TxnId} {f : Phase} (h : f.over = true) :
      Turn (.inside host id f) (.leave host id) () .outside

variable {α : Type} {x : Config} {q : Stage} {f : Phase} {host : Host} {id : TxnId}
  {row : Sep24Transaction}

section Creation

variable {returns : α → Phase → Prop} {fails : Phase → Prop}

theorem follows_ask {e : Query} {k : e.Reply → Service α}
    (h : ∀ r, Follows Creating returns fails f (k r)) :
    Follows Creating returns fails f (ask e >>= k) :=
  fun r => ⟨f, .ask e r, h r⟩

theorem follows_asking {p : Service α} (h : Every (fun e => ∃ q, e = .ask q) p) :
    Follows Creating (fun _ f' => f' = f) (fun f' => f' = f) f p := by
  refine Follows.of_every (h.mono ?_)
  rintro e ⟨q, rfl⟩ r
  exact .ask q r

/-- What a creation that returns has committed; one that fails has nothing open. -/
def Committed (row : Sep24Transaction) (_ : Unit) (f : Phase) : Prop :=
  ∃ orderId, f = .committed row orderId

theorem rollback_follows :
    Follows Creating (Committed row) (fun f => f = .fresh row) (.began row)
      (failAfter .rollback : Service Unit) :=
  fun _ => ⟨.fresh row, .rollback, rfl⟩

theorem createLocked_follows (r : Request) {retry : Service Unit}
    (h : Follows Creating (Committed row) (fun f => f = .fresh row) (.fresh row) retry) :
    Follows Creating (Committed row) (fun f => f = .fresh row) (.began row)
      (createLocked r retry) := by
  refine follows_ask fun now => follows_ask fun committed => ?_
  split
  next => exact rollback_follows
  next =>
    apply follows_ask
    intro used
    split
    next => exact rollback_follows
    next =>
      apply follows_ask
      intro verified
      split
      next =>
        intro consumed
        refine ⟨.began row, .consume r.quoteId consumed, ?_⟩
        match consumed with
        | none | some 0 => exact rollback_follows
        | some (_ + 1) =>
          intro inserted
          match inserted with
          | none => exact ⟨.began row, .collide _ _ _, rollback_follows⟩
          | some .uniqueViolation =>
            exact ⟨.began row, .collide _ _ _, fun _ => ⟨.fresh row, .rollback, h⟩⟩
          | some (.row orderId) =>
            refine ⟨.inserted row orderId, .insert _ _ _, fun done => ?_⟩
            match done with
            | true => exact ⟨.committed row orderId, .commit, orderId, rfl⟩
            | false => exact ⟨.fresh row, .abort, rfl⟩
      next => exact rollback_follows

theorem createAttempts_follows (y : Settings) (r : Request) (n : ℕ) :
    Follows Creating (Committed row) (fun f => f = .fresh row) (.fresh row)
      (createAttempts y r n) := by
  induction n with
  | zero => rfl
  | succ n ih =>
    exact fun _ => ⟨.began row, .begin, fun _ => ⟨.began row, .lock _, fun _ =>
      ⟨.began row, .lock _, createLocked_follows r ih⟩⟩⟩

theorem placeOrder_follows (y : Settings) (user : Address) (quoteId : QuoteId) (quote : Quote)
    (config : PlatformConfig) (personId : PersonId) (limitBase : ℤ) :
    Follows Creating (Committed row) (fun f => f = .fresh row) (.fresh row)
      (placeOrder y user quoteId quote config personId limitBase) := by
  refine follows_ask fun now => follows_ask fun tradeId => Follows.bind
    (follows_asking (every_ask ⟨_, rfl⟩ fun candidates => every_ask ⟨_, rfl⟩ fun own =>
      every_ask ⟨_, rfl⟩ fun now => tryLps_every (fun q => ⟨q, rfl⟩) _ _ _ _)) ?_
  rintro lp f rfl
  refine (follows_asking (trustlinesReady_every (fun q => ⟨q, rfl⟩) _)).bind ?_
  rintro ready f rfl
  split
  next => exact createAttempts_follows y _ _
  next => rfl

theorem createFromQuote_follows (y : Settings) (user : Address) (quoteId : QuoteId)
    (destination : Option String) :
    Follows Creating (Committed row) (fun f => f = .fresh row) (.fresh row)
      (createFromQuote y user quoteId destination) := by
  apply follows_ask
  intro quote
  split
  next => rfl
  next =>
    apply follows_ask
    intro now
    split
    next => rfl
    next =>
      split
      next => rfl
      next =>
        split
        next => rfl
        next =>
          apply follows_ask
          intro config
          split
          next => rfl
          next =>
            apply follows_ask
            intro person
            split
            next => rfl
            next =>
              refine follows_ask fun tier => follows_ask fun used => ?_
              split
              next => rfl
              next =>
                refine follows_ask fun verified => follows_ask fun enabled => ?_
                split
                next => exact placeOrder_follows y _ _ _ _ _ _
                next => rfl

end Creation

variable {returns : α → Stage → Prop} {fails : Stage → Prop}

theorem follows_quiet {e : Effect} {k : Reply e → Handler α} (he : quiet e = true)
    (h : ∀ r, Follows Turn returns fails q (k r)) :
    Follows Turn returns fails q (issue e >>= k) :=
  fun r => ⟨q, .quiet he r, h r⟩

theorem follows_demand {ok : Bool} {k : Unit → Handler α} (hfail : fails q)
    (h : ok = true → Follows Turn returns fails q (k ())) :
    Follows Turn returns fails q (demand ok >>= k) := by
  cases ok with
  | true => exact h rfl
  | false => exact hfail

theorem every_embed (hq : q.calm = true) (p : Service α) :
    Every (fun e => ∀ r, Turn q e r q) (p.embed .desk : Handler α) :=
  Every.embed (Every.of_forall (fun e => .desk hq e) p)

/-- A creation inside a submission. -/
theorem within_follows {p : Service α} {returns : α → Phase → Prop} {fails : Phase → Prop}
    (h : Follows Creating returns fails f p) :
    Follows Turn (fun a q => ∃ f, q = .inside host id f ∧ returns a f)
      (fun q => ∃ f, q = .inside host id f ∧ fails f) (.inside host id f) (p.embed (.within id) : Handler α) :=
  h.embed fun _ _ _ _ hturn => .within hturn

theorem refreshLinked_follows (hq : q.calm = true) (status : Option OrderStatus) :
    Follows Turn (fun _ q' => q' = q) (fun q' => q' = q) q (refreshLinked x row status) := by
  unfold refreshLinked
  split
  next =>
    split
    next =>
      refine Follows.of_every ((every_embed hq _).bind fun full => ?_)
      split
      next => trivial
      next => exact (every_embed hq _).caught.bind fun _ => trivial
    next => rfl
  next => rfl

theorem interactiveState_checks (hq : q.calm = true) (account : String)
    (status : Option OrderStatus) :
    Follows Turn (fun row' q' => row' = row ∧ q' = q) (fun q' => q' = q) q (do
      demand (row.stellarAccount = account)
      let known : Bool ← issue (Effect.lookupPerson row.stellarAccount)
      demand known
      refreshLinked x row status
      .pure row) := by
  refine follows_demand rfl fun _ => follows_quiet rfl fun known => follows_demand rfl fun _ => ?_
  apply (refreshLinked_follows hq status).bind
  rintro _ q' rfl
  exact ⟨rfl, rfl⟩

theorem interactiveState_outside (token : Option String) :
    Follows Turn (fun _ q => q = .outside) (fun q => q = .outside) .outside
      (interactiveState x id token) := by
  unfold interactiveState
  split
  next => rfl
  next account =>
    apply follows_quiet rfl
    intro found
    split
    next => rfl
    next row status =>
      exact (interactiveState_checks rfl account status).mono (fun _ _ h => h.2) fun _ h => h

/-- A call that is inside and has nothing open. -/
def Over (host : Host) (id : TxnId) (q : Stage) : Prop :=
  ∃ f, q = .inside host id f ∧ f.over = true

def ReadAs (host : Host) (id : TxnId) (row : Sep24Transaction) (q : Stage) : Prop :=
  q = .inside host id (.fresh row) ∨ row.orderId.isSome = true ∧ q = .inside host id .reading

theorem ReadAs.over (h : ReadAs host id row q) : Over host id q := by
  obtain rfl | ⟨-, rfl⟩ := h
  · exact ⟨_, rfl, rfl⟩
  · exact ⟨_, rfl, rfl⟩

theorem ReadAs.calm (h : ReadAs host id row q) : q.calm = true := by
  obtain rfl | ⟨-, rfl⟩ := h
  · rfl
  · rfl

theorem interactiveState_inside (token : Option String) :
    Follows Turn (ReadAs host id) (Over host id) (.inside host id .reading)
      (interactiveState x id token) := by
  unfold interactiveState
  split
  next => exact ⟨_, rfl, rfl⟩
  next account =>
    intro found
    match found with
    | none => exact ⟨_, .quiet rfl _, _, rfl, rfl⟩
    | some (row, status) =>
      have hread : ∃ q, ReadAs host id row q ∧
          Turn (.inside host id .reading) (.findTransaction id) (some (row, status)) q := by
        cases horder : row.orderId with
        | none => exact ⟨_, .inl rfl, .read horder status⟩
        | some orderId => exact ⟨_, .inr ⟨by rw [horder]; rfl, rfl⟩, .quiet rfl _⟩
      obtain ⟨q, hq, hturn⟩ := hread
      refine ⟨q, hturn, (interactiveState_checks hq.calm account status).mono ?_ ?_⟩
      · rintro row' q' ⟨rfl, rfl⟩
        exact hq
      · rintro q' rfl
        exact hq.over

theorem linkOrUndo_follows {orderId : OrderId} :
    Follows Turn (fun _ => Over host id) (Over host id) (.inside host id (.committed row orderId))
      (linkOrUndo id row) := by
  intro orderId
  refine ⟨_, .name orderId, fun linked => ?_⟩
  by_cases hone : linked = 1
  · subst hone
    exact ⟨_, .link, _, rfl, rfl⟩
  · refine ⟨_, .refuse linked hone, ?_⟩
    change Follows Turn _ _ _ (if linked = 1 then _ else _)
    rw [if_neg hone]
    exact fun n => ⟨_, .undo n, _, rfl, rfl⟩

theorem openOrderForAmount_follows (token : Option String) (amount : Option ℕ)
    (destination : Option String) :
    Follows Turn (fun _ => Over host id) (Over host id) (.inside host id .reading)
      (openOrderForAmount x id token amount destination) := by
  apply (interactiveState_inside token).bind
  intro row q hq
  have hover : Over host id q := hq.over
  split
  next => exact hover
  next hnone =>
    obtain rfl | ⟨hsome, -⟩ := hq
    · refine follows_quiet rfl fun atAmount => follows_demand hover fun _ => ?_
      split
      next => exact hover
      next amount =>
        refine follows_demand hover fun _ quote => ⟨_, .quote rfl _ _ _ _, ?_⟩
        match quote with
        | none => exact hover
        | some quoteId =>
          change Follows Turn _ _ _ (Program.embed (.within id) _ >>= fun _ => linkOrUndo id row)
          refine Follows.bind
            ((within_follows (createFromQuote_follows x.toSettings _ quoteId _)).mono
              (fun _ _ h => h) ?_) ?_
          · rintro q ⟨f, rfl, rfl⟩
            exact hover
          · rintro _ q ⟨f, rfl, orderId, rfl⟩
            exact linkOrUndo_follows
    · exact absurd hsome hnone

def start : Call → Stage
  | .submitAmount host id _ _ _ => .arriving host id
  | .other _ => .outside

theorem body_follows (c : Call) :
    Follows Turn (fun _ q => q = .outside) (fun q => q = .outside) (start c) (body x c) := by
  cases c with
  | other c => exact Follows.of_every (every_embed rfl _)
  | submitAmount host id token amount destination =>
    intro running
    match running with
    | some run =>
      refine ⟨_, .join run, (interactiveState_outside token).bind ?_⟩
      rintro _ q rfl
      exact fun _ => ⟨_, .quiet rfl _, rfl⟩
    | none =>
      refine ⟨_, .enter, (openOrderForAmount_follows token amount destination).ensuring ?_ ?_⟩
      · rintro _ q ⟨f, rfl, hf⟩
        exact fun _ => ⟨_, .leave hf, rfl⟩
      · rintro q ⟨f, rfl, hf⟩
        exact fun _ => ⟨_, .leave hf, rfl⟩

end Lolipay.Coordinator.SubmissionStages

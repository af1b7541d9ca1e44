import Lolipay.Coordinator.Footprint
import Lolipay.Coordinator.Scenes

namespace Lolipay.Coordinator.Attribution

open Lolipay.Ledger.Storage Lolipay.Ledger.Invocation Lolipay.Ledger.Runs
open Lolipay.Async.Process
open Lolipay.Escrow.Types Lolipay.Escrow.System Lolipay.Escrow.Phases
open Lolipay.Escrow.Custody (sampleEnv sampleArgs)
open Lolipay.Coordinator.Orders Lolipay.Coordinator.Binding Lolipay.Coordinator.Writes
open Lolipay.Coordinator.Database Lolipay.Coordinator.Services Lolipay.Coordinator.Indexer
open Lolipay.Coordinator.Desk Lolipay.Coordinator.Steps Lolipay.Coordinator.Footprint
open Lolipay.Coordinator.Replica Lolipay.Coordinator.Following Lolipay.Coordinator.Scenes

/-- What the row says about a round: who has raised it, and whether that was the resolver. -/
structure Marks where
  disputedBy : Option Address
  resolverDisputed : Bool
  deriving DecidableEq, Repr

def marks (f : Face) : Marks := ⟨f.disputedBy, f.resolverDisputed⟩

def marksFor (raiser userAddress : Address) (lpWallet : Option Address) : Marks :=
  ⟨some raiser, attributeDisputer raiser userAddress lpWallet = .resolver⟩

/-- The row names the one who raised the open round, and bears the resolver's
mark just when that is neither of its parties. -/
def Attributed (t : Trade) (row : Order) : Prop :=
  ∃ raiser, t.disputedBy = some raiser ∧ row.onChainDisputedBy = some raiser ∧
    (row.resolverDisputed = true ↔ raiser ≠ row.userAddress ∧ row.lpWallet ≠ some raiser)

theorem attributeDisputer_resolver {raiser userAddress : Address} {lpWallet : Option Address} :
    attributeDisputer raiser userAddress lpWallet = .resolver ↔
      raiser ≠ userAddress ∧ lpWallet ≠ some raiser := by
  rw [attributeDisputer]
  by_cases huser : raiser = userAddress
  · simp [huser]
  · by_cases hlp : lpWallet = some raiser
    · simp [huser, hlp]
    · simp [huser, hlp]

theorem attributed_of_marks {t : Trade} {row : Order} {raiser : Address}
    (ht : t.disputedBy = some raiser)
    (hrow : marks (faceOf row) = marksFor raiser row.userAddress row.lpWallet) : Attributed t row := by
  obtain ⟨hby, hresolver⟩ := Marks.mk.inj hrow
  refine ⟨raiser, ht, hby, ?_⟩
  change (faceOf row).resolverDisputed = true ↔ _
  rw [hresolver, decide_eq_true_eq]
  exact attributeDisputer_resolver

def entersDispute : RowWrite → Bool
  | .dispute _ | .reopen _ => true
  | _ => false

/-- The update of a disputed event matches a row without the mark of another
round, or finds that the row has the marks of this one already. -/
def Finds (raiser : Address) (w : RowWrite) (row : Order) : Prop :=
  (w.matchesRow row = true ∧ (row.resolverDisputed = true →
    attributeDisputer raiser row.userAddress row.lpWallet = .resolver)) ∨
  marks (faceOf row) = marksFor raiser row.userAddress row.lpWallet

instance (raiser : Address) (w : RowWrite) (row : Order) : Decidable (Finds raiser w row) :=
  inferInstanceAs (Decidable (_ ∨ _))

/-- The update that the indexer is about to make for a dispute which nothing
has come after. -/
def entering (w : Follower) : Option (Address × RowWrite) :=
  match w.handler, w.log[w.cursor]? with
  | some (.step (.write _ u) _), some (.disputed _ raiser) =>
    if entersDispute u = true ∧ w.log.length = w.cursor + 1 then some (raiser, u) else none
  | _, _ => none

/-- The indexer enters an open dispute on a row that nobody has moved ahead. -/
def Enters (q : Docket) (w : Follower) : Turn → Prop
  | .go _ => ∀ x ∈ entering w, ∀ row ∈ w.shared.db.orders.lookup q.order, Finds x.1 x.2 row
  | _ => True

instance (q : Docket) (w : Follower) : (a : Turn) → Decidable (Enters q w a)
  | .go _ => inferInstanceAs (Decidable (∀ x ∈ entering w, ∀ row ∈ _, Finds x.1 x.2 row))
  | .chain _ | .tick _ | .take _ | .advance | .crash _ | .refresh _ _ => .isTrue trivial

variable {q : Docket} {v v' : View} {row : Order} {k : ℕ} {ev : Event} {id : TradeId}
  {raiser : Address} {φ φ' : Phase} {log : List Event}

theorem raiser_of_disputed (hn : φ.next (.disputed id raiser) = some φ') :
    φ'.status = some .disputed ∧ φ'.raiser = some raiser := by
  cases φ <;> cases hn <;> exact ⟨rfl, rfl⟩

theorem disputed_of_next (hn : φ.next ev = some φ') (hst : φ'.status = some .disputed) :
    ∃ id raiser, ev = .disputed id raiser := by
  have hsettled (d : ResolveOutcome) : (Phase.settled d).status ≠ some .disputed := by
    cases d <;> simp [Phase.status]
  unfold Phase.next at hn
  split at hn <;> cases hn
  all_goals
    first
    | exact ⟨_, _, rfl⟩
    | exact absurd hst (hsettled _)
    | cases hst

theorem last_disputed (hl : Legal log) (hst : (phaseAt log log.length).status = some .disputed) :
    ∃ id raiser, log.getLast? = some (.disputed id raiser) ∧
      (phaseAt log log.length).raiser = some raiser := by
  obtain rfl | ⟨rest, ev, rfl⟩ := List.eq_nil_or_concat log
  · cases hst
  · rw [List.concat_eq_append] at hl hst ⊢
    have hev : (rest ++ [ev])[rest.length]? = some ev := by simp
    have hn := hl rest.length ev hev
    have hlen : (rest ++ [ev]).length = rest.length + 1 := by simp
    rw [hlen] at hst ⊢
    obtain ⟨id, raiser, rfl⟩ := disputed_of_next hn hst
    exact ⟨id, raiser, by simp, (raiser_of_disputed hn).2⟩

structure Keeps (q : Docket) (v v' : View) : Prop where
  grown : ∃ evs, v'.log = v.log ++ evs
  marks : marks (scene q v').toFace = marks (scene q v).toFace

theorem Keeps.refl (q : Docket) (v : View) : Keeps q v v :=
  ⟨⟨[], (List.append_nil _).symm⟩, rfl⟩

theorem Keeps.trans {u : View} (h : Keeps q u v) (h' : Keeps q v v') : Keeps q u v' := by
  obtain ⟨evs, hlog⟩ := h.grown
  obtain ⟨evs', hlog'⟩ := h'.grown
  refine ⟨⟨evs ++ evs', ?_⟩, h'.marks.trans h.marks⟩
  rw [hlog', hlog, List.append_assoc]

theorem Keeps.length_le (h : Keeps q v v') : v.log.length ≤ v'.log.length := by
  obtain ⟨evs, hlog⟩ := h.grown
  rw [hlog, List.length_append]
  exact Nat.le_add_right _ _

theorem Keeps.length_eq (h : Keeps q v v') (hev : v.log[k]? = some ev)
    (hlen : v'.log.length = k + 1) : v.log.length = k + 1 := by
  have hlt : k < v.log.length := (List.getElem?_eq_some_iff.mp hev).1
  have hle := h.length_le
  omega

theorem Keeps.refreshed (hm : Mirrors q v) (order : Order) (o : Choice) :
    Keeps q v { v with shared := refreshed q order o v.shared } := by
  refine ⟨⟨[], (List.append_nil _).symm⟩, ?_⟩
  obtain hsame | ⟨a, stamps, hwrite, -⟩ := refreshed_cases q order o v.shared
  · rw [hsame]
  · rw [hwrite]
    obtain ⟨row, hrow, -⟩ := hm.row
    cases hf : o.fails with
    | true =>
      have hsame : after 0 (.write q.order (.refresh a stamps)) o v.shared = v.shared := by
        simp [after, hf]
      rw [hsame]
    | false =>
      obtain ⟨-, hsame, -⟩ | ⟨-, hscene, -⟩ := scene_write hrow (.refresh a stamps) hf
      · rw [hsame]
      · rw [hscene, scene_toFace hrow, faceOf_refresh]
        rfl

/-- Once the last event is handled, a dispute that it tells of is on the row. -/
structure Credited (q : Docket) (k : ℕ) (v : View) : Prop where
  mirrors : Mirrors q v
  within : k ≤ v.log.length
  marked : v.log.length = k → ∀ id raiser, v.log.getLast? = some (.disputed id raiser) →
    marks (scene q v).toFace = marksFor raiser q.placement.userAddress q.placement.lpWallet

theorem Credited.along (h : Credited q k v) (hm : Mirrors q v') (hk : Keeps q v v') :
    Credited q k v' := by
  refine ⟨hm, h.within.trans hk.length_le, fun hlen id raiser hlast => ?_⟩
  obtain ⟨evs, hlog⟩ := hk.grown
  have hold : v.log.length = k := le_antisymm (hlen ▸ hk.length_le) h.within
  have hnil : evs = [] := by
    rw [hlog, List.length_append] at hlen
    exact List.eq_nil_of_length_eq_zero (by omega)
  rw [hlog, hnil, List.append_nil] at hlast
  rw [hk.marks]
  exact h.marked hold id raiser hlast

theorem Credited.midway (hm : Mirrors q v) (hev : v.log[k]? = some ev) : Credited q k v := by
  have hlt : k < v.log.length := (List.getElem?_eq_some_iff.mp hev).1
  exact ⟨hm, hlt.le, fun hlen => absurd hlen (by omega)⟩

theorem Credited.next (hm : Mirrors q v) (hev : v.log[k]? = some ev)
    (hmarks : ∀ id raiser, ev = .disputed id raiser → v.log.length = k + 1 →
      marks (scene q v).toFace = marksFor raiser q.placement.userAddress q.placement.lpWallet) :
    Credited q (k + 1) v := by
  have hlt : k < v.log.length := (List.getElem?_eq_some_iff.mp hev).1
  refine ⟨hm, hlt, fun hlen id raiser hlast => hmarks id raiser ?_ hlen⟩
  rw [List.getLast?_eq_getElem?, hlen, Nat.add_sub_cancel, hev] at hlast
  exact Option.some.inj hlast

/-- What the update of a disputed event finds, where the round is still open. -/
def MeetsRound (q : Docket) (k : ℕ) (ev : Event) (v : View) (e : Effect) : Prop :=
  ∀ id w raiser row, e = .write q.order w → ev = .disputed id raiser → entersDispute w = true →
    v.log.length = k + 1 → v.shared.db.orders.lookup q.order = some row → Finds raiser w row

def crediting (q : Docket) (sees : Shared → Option TradeOnChain → Prop) : Regime q sees where
  inv := Credited q
  rely := Keeps q
  meets := MeetsRound q
  refl := Keeps.refl q
  trans := Keeps.trans
  rewind h hle := ⟨h.mirrors, hle.trans h.within, fun hlen =>
    h.marked (le_antisymm (hlen ▸ hle) h.within)⟩
  grow _ _ _ h hfits :=
    have hk := ⟨⟨_, rfl⟩, rfl⟩
    ⟨h.along (h.mirrors.grow hfits) hk, hk⟩
  tick _ _ time h :=
    have hk := ⟨⟨[], (List.append_nil _).symm⟩, rfl⟩
    ⟨h.along (h.mirrors.tick time) hk, hk⟩
  refresh _ _ order o h _ _ :=
    have hk := Keeps.refreshed h.mirrors order o
    ⟨h.along (h.mirrors.refresh order o) hk, hk⟩

theorem crediting_mirrors {sees : Shared → Option TradeOnChain → Prop} (k : ℕ) (v : View)
    (h : (crediting q sees).inv k v) : Mirrors q v := Credited.mirrors (k := k) h

variable {sees : Shared → Option TradeOnChain → Prop} {α : Type} {p : Service α}

theorem safe_other (hev : v.log[k]? = some ev) (hne : ∀ id raiser, ev ≠ .disputed id raiser)
    (hp : Every (Own q.order) p) :
    Safe ((crediting q sees).handling k ev) (fun _ v' => Credited q (k + 1) v') p v := by
  induction p generalizing v with
  | pure a =>
    rintro v' hk ⟨hinv, hev'⟩
    exact .next (crediting_mirrors k v' hinv) hev' fun id raiser h => absurd h (hne id raiser)
  | fail => trivial
  | step e next ih =>
    rintro u hk ⟨hinv, hevu⟩ r u' ⟨o, -, rfl, rfl⟩
    have hm := Mirrors.after (o := o) (crediting_mirrors k u hinv) hp.1
    exact ⟨trivial, ⟨.midway hm hevu, hevu⟩, ih _ hevu (hp.2 _)⟩

/-- The round that a row may be credited with has left no other round's mark on it. -/
def Unmarked (q : Docket) (k : ℕ) (raiser : Address) (v : View) : Prop :=
  v.log.length = k + 1 → (scene q v).resolverDisputed = true →
    attributeDisputer raiser q.placement.userAddress q.placement.lpWallet = .resolver

theorem Unmarked.keeps (h : Unmarked q k raiser v) (hev : v.log[k]? = some ev)
    (hk : Keeps q v v') : Unmarked q k raiser v' := by
  intro hlen hmark
  apply h (hk.length_eq hev hlen)
  rw [← hmark]
  exact (congrArg Marks.resolverDisputed hk.marks).symm

/-- The resolver's mark is only ever set, so that it must not be left over. -/
theorem marks_reconciled {now : ℕ} {userAddress : Address} {lpWallet : Option Address} :
    marks (faceOf ((RowWrite.reconcileDisputeMetadata raiser
      (attributeDisputer raiser userAddress lpWallet)).data now row)) =
        marksFor raiser userAddress lpWallet ↔
      (row.resolverDisputed = true → attributeDisputer raiser userAddress lpWallet = .resolver) := by
  simp only [marks, marksFor, faceOf, RowWrite.data, Marks.mk.injEq, true_and]
  cases row.resolverDisputed <;> simp

theorem reconcileDisputeMetadata_credits (hev : v.log[k]? = some (.disputed id raiser))
    (hclean : Unmarked q k raiser v) :
    Safe ((crediting q sees).handling k (.disputed id raiser))
      (fun _ v' => Credited q (k + 1) v') (reconcileDisputeMetadata q.order (some raiser)) v := by
  rintro u hk ⟨hinv, hevu⟩ r u' ⟨o, -, rfl, rfl⟩
  refine ⟨trivial, ⟨hinv, hevu⟩, ?_⟩
  have hclean : Unmarked q k raiser u := hclean.keeps hev hk
  obtain ⟨fresh, hrow, hplace⟩ := (crediting_mirrors k u hinv).row
  have hread : reply 0 (.ask (.findOrder q.order)) o u.shared = some fresh := hrow
  rw [hread]
  refine safe_write crediting_mirrors (fun _ _ _ _ _ _ _ hno => (by cases hno)) ?_
  intro t t' row hk' hinvt hevt _ hm' hrowt _ hlog hscene
  have hevt' : t'.log[k]? = some (.disputed id raiser) := by rw [hlog, hevt]
  refine ⟨.midway hm' hevt', ?_⟩
  rintro s hks ⟨hinvs, hevs⟩
  refine .next (crediting_mirrors k s hinvs) hevs fun id' raiser' he hlen => ?_
  obtain ⟨rfl, rfl⟩ := Event.disputed.inj he
  have hlent : t.log.length = k + 1 := by
    rw [← hlog]
    exact hks.length_eq hevt' hlen
  have hold := hclean.keeps hevu hk' hlent
  rw [scene_toFace hrowt] at hold
  rw [hks.marks, hscene]
  have hrole : attributeDisputer raiser fresh.userAddress fresh.lpWallet =
      attributeDisputer raiser q.placement.userAddress q.placement.lpWallet := by rw [← hplace]
  rw [hrole]
  exact marks_reconciled.mpr hold

theorem entered_marks {w : RowWrite} (hw : entersDispute w = true) (now : ℕ) (row : Order) :
    marks (faceOf (w.data now row)) = marks (faceOf row) := by
  cases w with
  | dispute | reopen => rfl
  | refresh | promote | cancel | expire | autoRefund | attest | land | backfillSettlementHash
  | reconcileDisputeMetadata => cases hw

theorem enterDispute_credits {w : RowWrite} (hw : entersDispute w = true) :
    Safe ((crediting q sees).handling k (.disputed id raiser))
      (fun _ v' => Credited q (k + 1) v') (enterDispute q.order w (some raiser)) v := by
  refine safe_write crediting_mirrors (fun u row hk hinv hev hmeets hrow hno => ?_) ?_
  · rintro t hkt ⟨hinvt, hevt⟩
    refine .next (crediting_mirrors k t hinvt) hevt fun id' raiser' he hlen => ?_
    obtain ⟨rfl, rfl⟩ := Event.disputed.inj he
    obtain ⟨hmatch, -⟩ | hmarks := hmeets id w raiser row rfl rfl hw (hkt.length_eq hev hlen) hrow
    · exact absurd (hno.symm.trans hmatch) Bool.false_ne_true
    · rw [hkt.marks, scene_toFace hrow, hmarks, (crediting_mirrors k u hinv).placed hrow]
  · intro u u' row hk hinv hev hmeets hm hrow hmatch hlog hscene
    have hev' : u'.log[k]? = some (.disputed id raiser) := by rw [hlog, hev]
    refine ⟨.midway hm hev', ?_⟩
    have hgo : Safe ((crediting q sees).handling k (.disputed id raiser))
        (fun _ v' => Credited q (k + 1) v') (reconcileDisputeMetadata q.order (some raiser)) u' := by
      apply reconcileDisputeMetadata_credits hev'
      intro hlen hmark
      rw [hlog] at hlen
      rw [hscene] at hmark
      have hplace := (crediting_mirrors k u hinv).placed hrow
      have hsame : marks (faceOf (w.data u.shared.now row)) = marks (faceOf row) :=
        entered_marks hw _ row
      obtain ⟨-, hclean⟩ | hmarks := hmeets id w raiser row rfl rfl hw hlen hrow
      · rw [← hplace]
        exact hclean ((congrArg Marks.resolverDisputed hsame).symm.trans hmark)
      · have hmark := (congrArg Marks.resolverDisputed (hsame.trans hmarks)).symm.trans hmark
        rw [← hplace]
        exact of_decide_eq_true hmark
    refine hgo.bind (Keeps.refl q) ⟨.midway hm hev', hev'⟩ fun _ t ht hcredit => ?_
    exact fun s hks hinvs => hcredit.along (crediting_mirrors k s hinvs.1) hks

theorem applyDisputedEvent_credits (hplace : row.toPlacement = q.placement) :
    Safe ((crediting q sees).handling k (.disputed id raiser))
      (fun _ v' => Credited q (k + 1) v')
      (applyDisputedEvent q.contract (some raiser) q.order row) v := by
  rw [applyDisputedEvent, show row.tradeId = q.placement.tradeId by rw [hplace]]
  split
  next =>
    apply Regime.safe_strict crediting_mirrors rfl
    intro u t _ hu hevu ht
    dsimp only
    split
    next => exact enterDispute_credits rfl
    next hno =>
      -- The chain has moved on from this dispute.
      rintro s hks ⟨hinvs, hevs⟩
      refine .next (crediting_mirrors k s hinvs) hevs fun _ _ _ hlen => absurd ?_ hno
      have hm : Mirrors q u := crediting_mirrors k u hu
      have hag := hm.current
      rw [ht, hks.length_eq hevu hlen] at hag
      have hopen := (raiser_of_disputed (hm.legal k _ hevu)).1
      exact hag.status.symm.trans hopen
  next => exact enterDispute_credits rfl

theorem handleEvent_credits (hev : v.log[k]? = some ev) (hplace : row.toPlacement = q.placement)
    (hash : Option TxHash) :
    Safe ((crediting q sees).handling k ev) (fun _ v' => Credited q (k + 1) v')
      (handleEvent q.contract (q.rpcEvent k ev hash) q.order row) v := by
  by_cases hd : ∃ id raiser, ev = .disputed id raiser
  · obtain ⟨id, raiser, rfl⟩ := hd
    exact applyDisputedEvent_credits hplace
  · refine safe_other hev (fun id raiser he => hd ⟨id, raiser, he⟩) ?_
    refine handleEvent_every (fun _ => trivial) (fun _ => trivial) (fun e he _ _ => ?_) _ _
    cases e with
    | write | verdict | accrueProviderLoss | recordDisputeLost => exact Option.some.inj he
    | _ => cases he

theorem crediting_handles (q : Docket) (sees : Shared → Option TradeOnChain → Prop) :
    (crediting q sees).Handles := by
  refine Regime.handles crediting_mirrors (fun k v ev hinv hev hbody => ?_)
    fun k v ev hash row _ hev _ hplace => handleEvent_credits hev hplace hash
  refine .next (crediting_mirrors k v hinv) hev fun id raiser he => ?_
  subst he
  cases hbody

theorem met_of_enters {w : Follower} {a : Turn} (h : Enters q w a) :
    (crediting q sees).Met w a := by
  cases a with
  | go o =>
    rintro e next ev hrun hev id u raiser row rfl rfl hu hlen hrow
    have hentering : entering w = some (raiser, u) := by
      simp only [entering, hrun, hev]
      exact if_pos ⟨hu, hlen⟩
    exact h (raiser, u) hentering row hrow
  | chain | tick | take | advance | crash | refresh => trivial

variable {w₀ w : Follower} {tr : List (Entry Follower Turn Unit)} {t : Trade}

/-- In every run in which the indexer enters each open dispute on a row that
nobody has moved ahead, a trade that stands disputed in the end has its raiser
on the row. -/
theorem disputes_attributed (hstart : Starts q w₀) (hr : Run (replica q sees) w₀ tr w)
    (henters : ∀ x ∈ tr, Enters q x.pre x.act) (hdone : w.cursor = w.log.length)
    (ht : q.tradeIn w.shared.chain = some t) (hst : t.status = .disputed)
    (hrow : w.shared.db.orders.lookup q.order = some row) : Attributed t row := by
  have hbegin : Credited q 0 w₀.toView := by
    refine ⟨.of_starts hstart, Nat.zero_le _, fun _ id raiser hlast => ?_⟩
    rw [hstart.log] at hlast
    cases hlast
  have hsound : (crediting q sees).Sound w :=
    Regime.run (crediting_handles q sees) hr (fun x hx => met_of_enters (henters x hx))
      (.of_starts hstart hbegin)
  have hc : Credited q w.cursor w.toView := hsound.inv
  have hag := hc.mirrors.current
  rw [ht] at hag
  have hdisputed : (phaseAt w.log w.log.length).status = some .disputed := by
    rw [hag.status, hst]
  obtain ⟨id, raiser, hlast, hraiser⟩ := last_disputed hc.mirrors.legal hdisputed
  have hmarks := hc.marked hdone.symm id raiser hlast
  rw [scene_toFace hrow, ← hc.mirrors.placed hrow] at hmarks
  exact attributed_of_marks (hag.raiser raiser hraiser) hmarks

/-- A trade that is paid, as the indexer and a refresh have recorded it, and that
its provider disputes then. -/
def disputeTurns : List Turn :=
  [.chain (.call (sampleEnv 1000 [⟨6⟩]) (.createTrade 1 sampleArgs)),
    .chain (.call (sampleEnv 1500 [⟨7⟩]) (.markFiatPaid 1 ⟨7⟩)),
    .refresh samplePlacement.opened { onChain := some (decodeTradeStatus samplePaid) },
    .take none, .go {}, .advance, .take none, .go {}, .advance,
    .chain (.call (sampleEnv 1600 [⟨6⟩]) (.raiseDispute 1 ⟨6⟩))]

theorem disputeTurns_admitted : Admitted sampleReplica sampleFollower disputeTurns := by
  refine ⟨sample_call ?_ ?_, sample_call ?_ ?_, ⟨rfl, .inr rfl⟩, ⟨rfl, ?_⟩, trivial, trivial,
    ⟨rfl, ?_⟩, trivial, trivial, sample_call ?_ ?_, trivial⟩
  all_goals decide

def disputedFollower : Follower := final sampleReplica sampleFollower disputeTurns

def creditTurns : List Turn := disputeTurns ++ [.take none, .go {}, .go {}, .go {}, .go {}, .advance]

theorem creditTurns_admitted : Admitted sampleReplica sampleFollower creditTurns := by
  refine disputeTurns_admitted.append
    ⟨⟨rfl, ?_⟩, trivial, trivial, trivial, trivial, trivial, trivial⟩
  decide

theorem creditTurns_enter :
    ∀ x ∈ history sampleReplica sampleFollower creditTurns, Enters sampleDocket x.pre x.act := by
  decide

def creditedFollower : Follower := final sampleReplica sampleFollower creditTurns

theorem sample_attributed :
    ∃ row t, creditedFollower.shared.db.orders.lookup 0 = some row ∧
      sampleDocket.tradeIn creditedFollower.shared.chain = some t ∧ t.status = .disputed ∧
      Attributed t row := by
  obtain ⟨row, hrow⟩ : ∃ row, creditedFollower.shared.db.orders.lookup sampleDocket.order = some row :=
    Option.isSome_iff_exists.mp (by decide)
  obtain ⟨t, ht, hst⟩ : ∃ t ∈ sampleDocket.tradeIn creditedFollower.shared.chain,
      t.status = .disputed := by decide
  exact ⟨row, t, hrow, ht, hst, disputes_attributed sampleFollower_starts
    (Run.of_actions _ _ creditTurns_admitted) creditTurns_enter (by decide) ht hst hrow⟩

/-- A refresh of the order, by somebody who has read it as paid, comes before
the indexer. -/
def overtakenTurns : List Turn :=
  disputeTurns ++
    [.refresh { samplePlacement.opened with status := .fiatPaid }
        (asItIs disputedFollower.shared (.ask (.getTradeStatus ⟨0⟩ 1))),
      .take none, .go {}, .go {}, .advance]

theorem overtakenTurns_admitted : Admitted sampleReplica sampleFollower overtakenTurns := by
  refine disputeTurns_admitted.append ⟨⟨rfl, .inr rfl⟩, ⟨rfl, ?_⟩, trivial, trivial, trivial, trivial⟩
  decide

def overtakenFollower : Follower := final sampleReplica sampleFollower overtakenTurns

/-- The refresh takes the row to disputed first; the update of the event then
matches nothing, and the provider who raised the dispute is never recorded. -/
theorem refresh_hides_raiser :
    Starts sampleDocket sampleFollower ∧
    Run sampleReplica sampleFollower (history sampleReplica sampleFollower overtakenTurns)
      overtakenFollower ∧
    overtakenFollower.cursor = overtakenFollower.log.length ∧
    ∃ row t, overtakenFollower.shared.db.orders.lookup 0 = some row ∧
      sampleDocket.tradeIn overtakenFollower.shared.chain = some t ∧ t.status = .disputed ∧
      t.disputedBy = some ⟨6⟩ ∧ row.status = .disputed ∧ row.onChainDisputedBy = none ∧
      ¬Attributed t row := by
  refine ⟨sampleFollower_starts, Run.of_actions _ _ overtakenTurns_admitted, by decide, ?_⟩
  obtain ⟨row, hrow, hstatus, hby⟩ :
      ∃ row ∈ overtakenFollower.shared.db.orders.lookup 0,
        row.status = .disputed ∧ row.onChainDisputedBy = none := by decide
  obtain ⟨t, ht, hst, hraiser⟩ : ∃ t ∈ sampleDocket.tradeIn overtakenFollower.shared.chain,
      t.status = .disputed ∧ t.disputedBy = some ⟨6⟩ := by decide
  refine ⟨row, t, hrow, ht, hst, hraiser, hstatus, hby, ?_⟩
  rintro ⟨raiser, -, hrecorded, -⟩
  cases hby.symm.trans hrecorded

end Lolipay.Coordinator.Attribution

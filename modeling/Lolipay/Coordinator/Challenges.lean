import Lolipay.Ledger.Storage
import Lolipay.Ledger.Invocation
import Lolipay.Async.Scheduling

namespace Lolipay.Coordinator.Challenges

open Lolipay.Ledger.Storage Lolipay.Ledger.Invocation Lolipay.Ledger.Runs
open Lolipay.Async.Process Lolipay.Async.Scheduling

abbrev Nonce := ℕ

/-- A signed challenge transaction; `maxTime` is in seconds. -/
structure Challenge where
  nonce : Nonce
  maxTime : ℕ
  clientAccountID : Address
  deriving DecidableEq, Repr

structure AccountSigners where
  medThreshold : ℕ
  signers : List (Address × ℕ)
  deriving DecidableEq, Repr

inductive Effect where
  /-- The checks of the library on the transaction, without its signers. -/
  | readChallengeTx (c : Challenge)
  | isExpired (c : Challenge)
  | load (account : Address)
  | verifyChallengeTx (c : Challenge) (account : Option AccountSigners)
  | consume (c : Challenge)
  | proveWallet (account : Address)
  | lookupPerson (account : Address)
  | sign (c : Challenge)

/-- An outer `none` is a call that threw. -/
@[reducible] def Reply : Effect → Type
  | .readChallengeTx _ | .isExpired _ | .verifyChallengeTx _ _ | .lookupPerson _ => Bool
  | .load _ => Option (Option AccountSigners)
  | .consume _ => Option Bool
  | .proveWallet _ => Option Unit
  | .sign _ => Unit

abbrev Service (α : Type) := Program Effect Reply α

def read (c : Challenge) : Service Unit := do
  let wellFormed : Bool ← issue (Effect.readChallengeTx c)
  if wellFormed then do
    let expired : Bool ← issue (Effect.isExpired c)
    if expired then .fail else .pure ()
  else .fail

def signIn (c : Challenge) : Service Unit := do
  let _ ← (attempt (.proveWallet c.clientAccountID) fun r => r : Service Unit)
  let person : Bool ← issue (Effect.lookupPerson c.clientAccountID)
  if person then issue (Effect.sign c) else .fail

def issueToken (c : Challenge) : Service Unit := do
  read c
  let account ← (attempt (.load c.clientAccountID) fun r => r :
    Service (Option AccountSigners))
  let adequate : Bool ← issue (Effect.verifyChallengeTx c account)
  if adequate then do
    let spent ← (attempt (.consume c) fun r => r : Service Bool)
    if spent then signIn c else .fail
  else .fail

/-- Times are in milliseconds. `waiting` and `holding` are no data of the
service: they record which call is between its expiry check and the recording
of its nonce, and which has recorded it and not yet signed. -/
structure Shared where
  now : ℕ
  consumedChallenges : Store Nonce ℕ
  issued : List Challenge
  waiting : Pid → Option Challenge
  holding : Pid → Option Challenge

structure Choice where
  fails : Bool := false
  verdict : Bool := true
  account : Option AccountSigners := none

def expiresAt (c : Challenge) : ℕ := c.maxTime * 1000

def expired (c : Challenge) (now : ℕ) : Bool := c.maxTime < now / 1000

def assign (f : Pid → Option Challenge) (pid : Pid) (c : Option Challenge) :
    Pid → Option Challenge :=
  fun q => if q = pid then c else f q

def Shared.setWaiting (s : Shared) (pid : Pid) (c : Option Challenge) : Shared :=
  { s with waiting := assign s.waiting pid c }

def Shared.setHolding (s : Shared) (pid : Pid) (c : Option Challenge) : Shared :=
  { s with holding := assign s.holding pid c }

/-- The insertion, which the primary key lets through once. -/
def consume (pid : Pid) (c : Challenge) (s : Shared) : Shared × Bool :=
  match s.consumedChallenges.lookup c.nonce with
  | some _ => (s.setWaiting pid none, false)
  | none =>
    ({ (s.setWaiting pid none).setHolding pid (some c) with
        consumedChallenges := s.consumedChallenges.insert c.nonce (expiresAt c) }, true)

def effect (pid : Pid) (e : Effect) (o : Choice) (s : Shared) : Shared × Reply e :=
  match e with
  | .readChallengeTx _ | .lookupPerson _ => (s, o.verdict)
  | .isExpired c =>
    if expired c s.now then (s, true) else (s.setWaiting pid (some c), false)
  -- A refusal or a failure ends the call, and it waits no longer.
  | .load _ => if o.fails then (s.setWaiting pid none, none) else (s, some o.account)
  | .verifyChallengeTx _ _ => if o.verdict then (s, true) else (s.setWaiting pid none, false)
  | .consume c =>
    if o.fails then (s.setWaiting pid none, none)
    else ((consume pid c s).1, some (consume pid c s).2)
  | .proveWallet _ => (s, if o.fails then none else some ())
  | .sign c => ({ s.setHolding pid none with issued := c :: s.issued }, ())

inductive Move where
  | tick (time : ℕ)
  | pruneOldQuotes

def prunable (s : Shared) : List Nonce :=
  s.consumedChallenges.keys.filter fun nonce =>
    (s.consumedChallenges.lookup nonce).any fun expiresAt => expiresAt < s.now

def moved (s : Shared) : Move → Shared
  | .tick time => { s with now := time }
  | .pruneOldQuotes =>
    { s with consumedChallenges :=
      (prunable s).foldl (fun st nonce => st.erase nonce) s.consumedChallenges }

def login : System Challenge Choice Move Effect Reply Shared where
  body := issueToken
  delivers _ _ := True
  permits _ _ _ _ := True
  effect := effect
  dies pid s := (s.setWaiting pid none).setHolding pid none
  moves s
    | .tick time => s.now ≤ time
    | .pruneOldQuotes => True
  moved := moved

abbrev Office := Pool Effect Reply Shared

/-- A prune comes at a good moment: whatever record it deletes, the second in
which that challenge expires is over, and no call is about to record its nonce again. -/
def Timely (s : Shared) : Prop :=
  ∀ nonce ∈ prunable s, (∀ t, s.consumedChallenges.lookup nonce = some t → t / 1000 < s.now / 1000) ∧
    ∀ pid c, s.waiting pid = some c → c.nonce ≠ nonce

def UnhurriedMove (s : Shared) (a : Move) : Prop := a = .pruneOldQuotes → Timely s

def Unhurried : Office → Act Challenge Choice Move → Prop :=
  Heeds (fun _ _ _ _ => True) UnhurriedMove

variable {s t : Shared} {c : Challenge} {pid : Pid}

theorem assign_self (f : Pid → Option Challenge) (pid : Pid) (c : Option Challenge) :
    assign f pid c pid = c := by
  simp [assign]

theorem assign_other {f : Pid → Option Challenge} {pid q : Pid} (hq : q ≠ pid)
    (c : Option Challenge) : assign f pid c q = f q := by
  simp [assign, hq]

theorem of_assign {f : Pid → Option Challenge} {pid q : Pid} {x : Option Challenge}
    (hx : x ≠ some c) (h : assign f pid x q = some c) : f q = some c := by
  by_cases hq : q = pid
  · rw [hq, assign_self] at h
    exact absurd h hx
  · rwa [assign_other hq] at h

/-- One challenge is good for one token: it is signed once or held by one call,
and then its record is there or it is of no use to anybody any more. -/
structure Once (c : Challenge) (s : Shared) : Prop where
  issued : s.issued.count c ≤ 1
  single : ∀ p q, s.holding p = some c → s.holding q = some c → p = q
  unsigned : ∀ p, s.holding p = some c → c ∉ s.issued
  spent : (c ∈ s.issued ∨ ∃ p, s.holding p = some c) →
    s.consumedChallenges.lookup c.nonce = some (expiresAt c) ∨
      (expired c s.now = true ∧ ∀ p, s.waiting p ≠ some c)

theorem Once.setWaiting (h : Once c s) (pid : Pid) : Once c (s.setWaiting pid none) where
  issued := h.issued
  single := h.single
  unsigned := h.unsigned
  spent hs := by
    obtain hrow | ⟨hexp, hwait⟩ := h.spent hs
    · exact .inl hrow
    · exact .inr ⟨hexp, fun p hp => hwait p (of_assign (by simp) hp)⟩

theorem Once.setHolding (h : Once c s) (pid : Pid) : Once c (s.setHolding pid none) where
  issued := h.issued
  single p q hp hq := h.single p q (of_assign (by simp) hp) (of_assign (by simp) hq)
  unsigned p hp := h.unsigned p (of_assign (by simp) hp)
  spent hs := h.spent (hs.imp_right fun ⟨p, hp⟩ => ⟨p, of_assign (by simp) hp⟩)

theorem Once.check {d : Challenge} (h : Once c s) (hd : expired d s.now = false) (pid : Pid) :
    Once c (s.setWaiting pid (some d)) where
  issued := h.issued
  single := h.single
  unsigned := h.unsigned
  spent hs := by
    obtain hrow | ⟨hexp, hwait⟩ := h.spent hs
    · exact .inl hrow
    · have hne : some d ≠ some c := by
        rintro heq
        obtain rfl := Option.some.inj heq
        rw [hd] at hexp
        cases hexp
      exact .inr ⟨hexp, fun p hp => hwait p (of_assign hne hp)⟩

theorem Once.consume {d : Challenge} (h : Once c s) (hwait : s.waiting pid = some d) :
    Once c (consume pid d s).1 := by
  rw [Challenges.consume]
  split
  next => exact h.setWaiting pid
  next hrow =>
    by_cases hcd : c = d
    · subst hcd
      -- The record is gone and the call is waiting, so nobody was there before.
      have hnew : ¬(c ∈ s.issued ∨ ∃ p, s.holding p = some c) := by
        intro hs
        obtain hrow' | ⟨-, hno⟩ := h.spent hs
        · cases hrow.symm.trans hrow'
        · exact hno pid hwait
      obtain ⟨hissued, hholding⟩ := not_or.mp hnew
      have hown (p : Pid) (hp : assign s.holding pid (some c) p = some c) : p = pid := by
        by_contra hne
        rw [assign_other hne] at hp
        exact hholding ⟨p, hp⟩
      exact ⟨h.issued, fun p q hp hq => (hown p hp).trans (hown q hq).symm, fun p _ => hissued,
        fun _ => .inl (AList.lookup_insert _)⟩
    · have hne : some d ≠ some c := fun heq => hcd (Option.some.inj heq).symm
      refine ⟨h.issued, fun p q hp hq => h.single p q (of_assign hne hp) (of_assign hne hq),
        fun p hp => h.unsigned p (of_assign hne hp), fun hs => ?_⟩
      obtain hrow' | ⟨hexp, hno⟩ := h.spent (hs.imp_right fun ⟨p, hp⟩ => ⟨p, of_assign hne hp⟩)
      · left
        have hnonce : c.nonce ≠ d.nonce := by
          intro heq
          rw [heq, hrow] at hrow'
          cases hrow'
        exact (AList.lookup_insert_ne hnonce).trans hrow'
      · exact .inr ⟨hexp, fun p hp => hno p (of_assign (by simp) hp)⟩

theorem Once.sign {d : Challenge} (h : Once c s) (hold : s.holding pid = some d) :
    Once c { s.setHolding pid none with issued := d :: s.issued } := by
  by_cases hcd : c = d
  · subst hcd
    have hno : c ∉ s.issued := h.unsigned pid hold
    refine ⟨?_, fun p q hp hq => h.single p q (of_assign (by simp) hp) (of_assign (by simp) hq),
      fun p hp => ?_, fun _ => h.spent (.inr ⟨pid, hold⟩)⟩
    · rw [List.count_cons_self, List.count_eq_zero_of_not_mem hno]
    · have hpid : p = pid := h.single p pid (of_assign (by simp) hp) hold
      rw [hpid] at hp
      cases (assign_self s.holding pid none).symm.trans hp
  · have hmem : c ∈ d :: s.issued ↔ c ∈ s.issued := by simp [hcd]
    refine ⟨?_, (h.setHolding pid).single, fun p hp => ?_, fun hs => ?_⟩
    · rw [List.count_cons_of_ne (Ne.symm hcd)]
      exact h.issued
    · rw [hmem]
      exact (h.setHolding pid).unsigned p hp
    · exact (h.setHolding pid).spent (hs.imp_left hmem.mp)

theorem expired_mono {now now' : ℕ} (hle : now ≤ now') (h : expired c now = true) :
    expired c now' = true := by
  simp only [expired, decide_eq_true_eq] at h ⊢
  exact h.trans_le (Nat.div_le_div_right hle)

theorem Once.tick {time : ℕ} (h : Once c s) (hle : s.now ≤ time) : Once c { s with now := time } :=
  ⟨h.issued, h.single, h.unsigned, fun hs =>
    (h.spent hs).imp_right fun ⟨hexp, hwait⟩ => ⟨expired_mono hle hexp, hwait⟩⟩

/-- A timely prune takes only records that nobody can make again. -/
theorem Once.prune (h : Once c s) (ht : Timely s) : Once c (moved s .pruneOldQuotes) := by
  refine ⟨h.issued, h.single, h.unsigned, fun hs => ?_⟩
  obtain hrow | hclosed := h.spent hs
  · by_cases hp : c.nonce ∈ prunable s
    · right
      obtain ⟨hover, hwait⟩ := ht c.nonce hp
      have hlt := hover _ hrow
      refine ⟨?_, fun p hp => hwait p c hp rfl⟩
      simp only [expiresAt] at hlt
      have hsecond : c.maxTime < s.now / 1000 := by omega
      exact decide_eq_true hsecond
    · left
      simp only [moved]
      rw [lookup_erases, if_neg hp]
      exact hrow
  · exact .inr hclosed

def carefully : System Challenge Choice Move Effect Reply Shared :=
  login.restrict (fun _ _ _ _ => True) UnhurriedMove

/-- Nobody else has a say in what a call waits for or holds. -/
def onceProtocol : Protocol carefully where
  rely pid s t := t.waiting pid = s.waiting pid ∧ t.holding pid = s.holding pid
  guar pid s t := ∀ q ≠ pid, t.waiting q = s.waiting q ∧ t.holding q = s.holding q
  inv s := ∀ c, Once c s
  refl _ _ := ⟨rfl, rfl⟩
  trans _ _ _ _ h h' := ⟨h'.1.trans h.1, h'.2.trans h.2⟩
  shares pid q s t hne _ h := h q (Ne.symm hne)
  dies pid s hs :=
    ⟨fun c => ((hs c).setWaiting pid).setHolding pid, fun q hq =>
      ⟨assign_other (Ne.symm hq) none, assign_other (Ne.symm hq) none⟩⟩
  moved s a hs ha := by
    cases a with
    | tick time => exact ⟨fun c => (hs c).tick ha.1, fun _ => ⟨rfl, rfl⟩⟩
    | pruneOldQuotes => exact ⟨fun c => (hs c).prune (ha.2 rfl), fun _ => ⟨rfl, rfl⟩⟩

variable {α : Type} {Q : α → Shared → Prop}

theorem safe_reading {e : Effect} {k : Reply e → Service α}
    (hq : ∀ o t, (effect pid e o t).1 = t)
    (hk : ∀ r t, onceProtocol.rely pid s t → (∀ c, Once c t) →
      Safe (onceProtocol.of pid) Q (k r) t) :
    Safe (onceProtocol.of pid) Q (.step e k) s :=
  safe_quiet onceProtocol (fun _ _ _ => ⟨rfl, rfl⟩) hq fun t _ hst ht => hk _ t hst ht

theorem signIn_safe (hold : s.holding pid = some c) :
    Safe (onceProtocol.of pid) (fun _ _ => True) (signIn c) s := by
  apply safe_reading (fun _ _ => rfl)
  intro r t hst ht
  cases (r : Option Unit) with
  | none => trivial
  | some u =>
    apply safe_reading (fun _ _ => rfl)
    intro person t' hst' ht'
    cases (person : Bool) with
    | false => trivial
    | true =>
      apply safe_step
      intro t'' o hst'' ht'' _
      have hold' : t''.holding pid = some c := by
        rw [hst''.2, hst'.2, hst.2, hold]
      refine ⟨fun q hq => ⟨rfl, assign_other hq none⟩, fun d => (ht'' d).sign hold', ?_⟩
      intro _ _ _
      trivial

theorem consume_others (pid : Pid) (c : Challenge) (s : Shared) (q : Pid) (hq : q ≠ pid) :
    (consume pid c s).1.waiting q = s.waiting q ∧ (consume pid c s).1.holding q = s.holding q := by
  rw [consume]
  split
  next => exact ⟨assign_other hq none, rfl⟩
  next => exact ⟨assign_other hq none, assign_other hq (some c)⟩

theorem holding_of_consume (h : (consume pid c s).2 = true) :
    (consume pid c s).1.holding pid = some c := by
  rw [consume] at h ⊢
  split at h
  next => cases h
  next => exact assign_self _ _ _

theorem leave_keeps (h : ∀ d, Once d s) (pid : Pid) :
    (onceProtocol.of pid).guar s (s.setWaiting pid none) ∧ ∀ d, Once d (s.setWaiting pid none) :=
  ⟨fun _ hq => ⟨assign_other hq none, rfl⟩, fun d => (h d).setWaiting pid⟩

theorem redeem_safe (hwait : s.waiting pid = some c) :
    Safe (onceProtocol.of pid) (fun _ _ => True)
      (attempt (.consume c) (fun r => r) >>= fun spent : Bool =>
        if spent then signIn c else .fail) s := by
  apply safe_step
  intro t o hst ht _
  have hwait' : t.waiting pid = some c := hst.1.trans hwait
  cases hf : o.fails with
  | true =>
    simp only [carefully, System.restrict, login, effect, hf]
    obtain ⟨hothers, honce⟩ := leave_keeps ht pid
    exact ⟨hothers, honce, trivial⟩
  | false =>
    simp only [carefully, System.restrict, login, effect, hf]
    refine ⟨consume_others pid c t, fun d => (ht d).consume hwait', ?_⟩
    cases hspent : (consume pid c t).2 with
    | false => trivial
    | true => exact signIn_safe (holding_of_consume hspent)

theorem account_safe (hwait : s.waiting pid = some c) :
    Safe (onceProtocol.of pid) (fun _ _ => True)
      (attempt (.load c.clientAccountID) (fun r => r) >>= fun account : Option AccountSigners =>
        issue (Effect.verifyChallengeTx c account) >>= fun adequate : Bool =>
          if adequate then
            attempt (.consume c) (fun r => r) >>= fun spent : Bool =>
              if spent then signIn c else .fail
          else .fail) s := by
  apply safe_step
  intro t o hst ht _
  cases hf : o.fails with
  | true =>
    simp only [carefully, System.restrict, login, effect, hf]
    obtain ⟨hothers, honce⟩ := leave_keeps ht pid
    exact ⟨hothers, honce, trivial⟩
  | false =>
    simp only [carefully, System.restrict, login, effect, hf]
    refine ⟨fun _ _ => ⟨rfl, rfl⟩, ht, ?_⟩
    apply safe_step
    intro u o' htu hu _
    cases hv : o'.verdict with
    | false =>
      simp only [effect, hv]
      obtain ⟨hothers, honce⟩ := leave_keeps hu pid
      exact ⟨hothers, honce, trivial⟩
    | true =>
      simp only [effect, hv]
      exact ⟨fun _ _ => ⟨rfl, rfl⟩, hu, redeem_safe ((htu.1.trans hst.1).trans hwait)⟩

theorem issueToken_safe (c : Challenge) (s : Shared) :
    Safe (onceProtocol.of pid) (fun _ _ => True) (issueToken c) s := by
  apply safe_reading (fun _ _ => rfl)
  intro wellFormed t hst ht
  cases (wellFormed : Bool) with
  | false => trivial
  | true =>
    apply safe_step
    intro t' o hst' ht' _
    cases hexp : expired c t'.now with
    | true =>
      simp only [carefully, System.restrict, login, effect, hexp]
      exact ⟨fun _ _ => ⟨rfl, rfl⟩, ht', trivial⟩
    | false =>
      simp only [carefully, System.restrict, login, effect, hexp]
      refine ⟨fun q hq => ⟨assign_other hq _, rfl⟩, fun d => (ht' d).check hexp pid, ?_⟩
      exact account_safe (assign_self _ _ _)

variable {w : Office} {tr : List (Entry Office (Act Challenge Choice Move) (Option (Pid × Effect)))}

structure Fresh (s : Shared) : Prop where
  issued : s.issued = []
  waiting : ∀ pid, s.waiting pid = none
  holding : ∀ pid, s.holding pid = none

theorem Fresh.once (h : Fresh s) (c : Challenge) : Once c s where
  issued := by simp [h.issued]
  single p q hp := by simp [h.holding] at hp
  unsigned p hp := by simp [h.holding] at hp
  spent hs := by simp [h.issued, h.holding] at hs

/-- A run with timely prunes gives out one token for each challenge. -/
theorem one_token_for_a_challenge (hs : Fresh s) (hr : Run (machine login) (idle s) tr w)
    (hprunes : ∀ e ∈ tr, Unhurried e.pre e.act) (c : Challenge) : w.shared.issued.count c ≤ 1 := by
  have horder : Orderly onceProtocol w :=
    run_orderly_of_heeds (fun _ c s _ _ => issueToken_safe c s) hr hs.once hprunes
  exact (horder.1 c).issued

def sampleChallenge : Challenge := ⟨7, 100, ⟨1⟩⟩

/-- Nobody has logged in, in the last second of the sample challenge. -/
def sampleLogin : Shared := ⟨100400, ∅, [], fun _ => none, fun _ => none⟩

theorem sampleLogin_fresh : Fresh sampleLogin := ⟨rfl, fun _ => rfl, fun _ => rfl⟩

def callThrough (pid : Pid) : List (Act Challenge Choice Move) :=
  List.replicate 8 (.go pid ⟨false, true, none⟩)

def timelyActions : List (Act Challenge Choice Move) :=
  .spawn 0 sampleChallenge :: callThrough 0 ++
    [.kill 0, .outside (.tick 101000), .outside .pruneOldQuotes]

theorem timelyActions_admitted : Admitted (machine login) (idle sampleLogin) timelyActions :=
  ⟨⟨rfl, trivial⟩, trivial, trivial, trivial, trivial, trivial, trivial, trivial, trivial, trivial,
    (by decide : 100400 ≤ 101000), trivial, trivial⟩

def spentLogin : Shared :=
  (final (machine login) (idle sampleLogin) (timelyActions.take 11)).shared

theorem spentLogin_timely : Timely spentLogin := by
  have hwaiting (pid : Pid) : spentLogin.waiting pid = none := by
    by_cases hpid : pid = 0
    · subst hpid
      rfl
    · change assign (assign (assign _ 0 _) 0 _) 0 _ pid = none
      rw [assign_other hpid, assign_other hpid, assign_other hpid]
      rfl
  have hprune : prunable spentLogin = [7] := by decide +kernel
  have hrow : spentLogin.consumedChallenges.lookup 7 = some 100000 := by decide +kernel
  have hnow : spentLogin.now = 101000 := rfl
  intro nonce hmem
  rw [hprune, List.mem_singleton] at hmem
  subst hmem
  refine ⟨fun t ht => ?_, fun pid c hc => ?_⟩
  · rw [hrow] at ht
    obtain rfl := Option.some.inj ht
    rw [hnow]
    decide
  · rw [hwaiting] at hc
    cases hc

theorem sample_one_token : ∃ tr w, Run (machine login) (idle sampleLogin) tr w ∧
    w.shared.issued = [sampleChallenge] ∧ w.shared.consumedChallenges.lookup 7 = none ∧
    w.shared.issued.count sampleChallenge ≤ 1 := by
  refine ⟨_, _, .of_actions _ _ timelyActions_admitted, rfl, rfl, ?_⟩
  refine one_token_for_a_challenge sampleLogin_fresh (.of_actions _ _ timelyActions_admitted) ?_ _
  refine history_meets _ _ ?_
  have htick (s : Shared) : UnhurriedMove s (.tick 101000) := by
    intro h
    cases h
  exact ⟨trivial, trivial, trivial, trivial, trivial, trivial, trivial, trivial, trivial, trivial,
    htick _, fun _ => spentLogin_timely, trivial⟩

/-- Two calls pass their check, the first takes its token, and a prune in the
same second clears the way for the other. -/
def hurriedActions : List (Act Challenge Choice Move) :=
  [.spawn 0 sampleChallenge, .spawn 1 sampleChallenge, .go 1 ⟨false, true, none⟩,
    .go 1 ⟨false, true, none⟩] ++ callThrough 0 ++ [.outside .pruneOldQuotes] ++
    List.replicate 6 (.go 1 ⟨false, true, none⟩)

theorem two_tokens_for_a_challenge : ∃ tr w, Run (machine login) (idle sampleLogin) tr w ∧
    w.shared.issued = [sampleChallenge, sampleChallenge] := by
  refine ⟨_, _, .of_actions hurriedActions _ ?_, rfl⟩
  exact ⟨⟨rfl, trivial⟩, ⟨rfl, trivial⟩, trivial, trivial, trivial, trivial, trivial, trivial,
    trivial, trivial, trivial, trivial, trivial, trivial, trivial, trivial, trivial, trivial,
    trivial, trivial⟩

end Lolipay.Coordinator.Challenges

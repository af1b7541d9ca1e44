import Lolipay.Coordinator.Outbox

namespace Lolipay.Coordinator.Delivery

open Lolipay.Ledger.Storage Lolipay.Ledger.Runs
open Lolipay.Coordinator.Outbox

variable {s s' : State} {a : Act} {id : MessageId} {m : Message} {tr tr' : History} {now : ℕ}

def isQueuedBefore (m n : Message) : Bool := n.status = .pending && decide (notAfter n m)

/-- The pending messages that are not after the given one, itself included. -/
def queuedBefore (m : Message) (rows : Store MessageId Message) : ℕ :=
  rows.entries.countP fun e => isQueuedBefore m e.2

def place (m n : Message) : ℤ := if isQueuedBefore m n then 1 else 0

theorem queuedBefore_eq (m : Message) (rows : Store MessageId Message) :
    (queuedBefore m rows : ℤ) = total (place m) rows := by
  rw [queuedBefore, total]
  induction rows.entries with
  | nil => rfl
  | cons e es ih =>
    rw [List.countP_cons, List.map_cons, List.sum_cons, ← ih, place]
    split <;> push_cast <;> omega

theorem place_of_notAfter {n : Message} (hst : n.status = .pending) (h : notAfter n m) :
    place m n = 1 := by
  simp [place, isQueuedBefore, hst, h]

theorem place_nonneg (m n : Message) : 0 ≤ place m n := by
  rw [place]
  split <;> omega

/-- An attempt that is recorded takes the message off the queue, or puts it
behind everything that was due. -/
theorem place_recordData (hdue : m.nextAttemptAt ≤ now) (msg : Message) (stage : Stage)
    (n : Message) : place m (recordData now msg stage n) = 0 := by
  rw [place, if_neg]
  simp only [isQueuedBefore, Bool.and_eq_true, decide_eq_true_eq, not_and]
  intro hst
  obtain ⟨-, heq⟩ | ⟨-, error, heq⟩ := recordData_cases now msg stage n
  · rw [heq] at hst
    cases hst
  · rw [heq]
    have hpos := backoffFor_pos (msg.attempts + 1)
    simp only [notAfter, markFailed]
    omega

theorem queuedBefore_prune (m : Message) (s : State) :
    queuedBefore m (next s .prune).rows ≤ queuedBefore m s.rows := by
  have hle : total (place m) (next s .prune).rows ≤ total (place m) s.rows := by
    apply total_le
    intro id
    simp only [measureAt, lookup_prune]
    split
    next =>
      cases s.rows.lookup id with
      | none => simp
      | some n => simpa using place_nonneg m n
    next => exact le_rfl
  rw [← queuedBefore_eq, ← queuedBefore_eq] at hle
  exact_mod_cast hle

theorem queuedBefore_enqueue {job : OutboxJob} {createdAt : ℕ} (hs : Sound s) (hid : id ∉ s.issued)
    (hlate : ¬notAfter (job.message createdAt) m) :
    queuedBefore m (enqueue id job createdAt s).rows = queuedBefore m s.rows := by
  simp only [enqueue]
  split
  next => rfl
  next =>
    have hnone : s.rows.lookup id = none := by
      by_contra hne
      obtain ⟨n, hn⟩ := Option.ne_none_iff_exists'.mp hne
      exact hid (hs.issued id n hn)
    have hzero : place m (job.message createdAt) = 0 := by
      simp [place, isQueuedBefore, hlate]
    have htotal := total_insert (place m) s.rows id (job.message createdAt)
    rw [measureAt_of_none hnone, hzero, ← queuedBefore_eq, ← queuedBefore_eq] at htotal
    omega

theorem queuedBefore_record {msg : Message} {stage : Stage} (hs : Sound s)
    (hdue : m.nextAttemptAt ≤ s.now) (hc : s.current = some (id, msg, stage)) :
    (queuedBefore m (next s .record).rows : ℤ) = queuedBefore m s.rows - place m msg := by
  obtain ⟨hrow, hst⟩ := hs.current_stored hc
  obtain ⟨rest, hd⟩ := current_eq_some.mp hc
  have hrows : (next s .record).rows = s.rows.insert id (recordData s.now msg stage msg) := by
    simp only [next, record, hd, updatePending, hrow, hst, if_true]
  rw [hrows, queuedBefore_eq, queuedBefore_eq, total_insert, measureAt_of_lookup hrow,
    place_recordData hdue]
  omega

/-- Since a drain started, `c` drains have completed and the message was never
attempted. A drain that has it in hand will come to it; any other one is busy
with a full batch of messages from before it. -/
structure Waiting (id : MessageId) (m : Message) (k c : ℕ) (s : State) : Prop where
  sound : Sound s
  row : s.rows.lookup id = some m
  pending : m.status = .pending
  due : m.nextAttemptAt ≤ s.now
  fresh : ∀ msg stage, s.current = some (id, msg, stage) → stage = .waiting
  progress :
    ((∀ cutoff, s.drain = some (.querying cutoff) → m.nextAttemptAt ≤ cutoff) ∧
      (∀ todo stage, s.drain = some (.working todo stage) → (id, m) ∈ todo) ∧
      queuedBefore m s.rows + outboxBatchSize * c ≤ k) ∨
    ∃ todo stage, s.drain = some (.working todo stage) ∧ (id, m) ∉ todo ∧
      (∀ p ∈ todo, notAfter p.2 m) ∧
      queuedBefore m s.rows + outboxBatchSize * (c + 1) ≤ k + todo.length

variable {k c : ℕ}

/-- As long as it waits, the message itself keeps the count from running out. -/
theorem Waiting.lt (hw : Waiting id m k c s) : outboxBatchSize * c < k := by
  have hone : 1 ≤ queuedBefore m s.rows := by
    have hmem : (⟨id, m⟩ : Sigma fun _ : MessageId => Message) ∈ s.rows.entries :=
      AList.mem_lookup_iff.mp hw.row
    refine List.countP_pos_iff.mpr ⟨_, hmem, ?_⟩
    simp [isQueuedBefore, hw.pending, notAfter]
  obtain ⟨-, -, hle⟩ | ⟨todo, stage, hd, -, -, hle⟩ := hw.progress
  · omega
  · have hlen := hw.sound.todo_length _ _ hd
    rw [Nat.mul_succ] at hle
    omega

theorem Waiting.keep (hw : Waiting id m k c s) (hs' : Sound s') (hrow : s'.rows.lookup id = some m)
    (hnow : s.now ≤ s'.now) (hd : s'.drain = s.drain)
    (hq : queuedBefore m s'.rows ≤ queuedBefore m s.rows) : Waiting id m k c s' where
  sound := hs'
  row := hrow
  pending := hw.pending
  due := hw.due.trans hnow
  fresh msg stage hc := by
    rw [State.current, hd] at hc
    exact hw.fresh msg stage hc
  progress := by
    rw [hd]
    obtain ⟨hcut, htodo, hle⟩ | ⟨todo, stage, hdr, hno, hall, hle⟩ := hw.progress
    · exact .inl ⟨hcut, htodo, by omega⟩
    · exact .inr ⟨todo, stage, hdr, hno, hall, by omega⟩

theorem Waiting.restage (hw : Waiting id m k c s) {id' : MessageId} {msg : Message}
    {rest : List (MessageId × Message)} {stage stage' : Stage}
    (hd : s.drain = some (.working ((id', msg) :: rest) stage)) (hne : id' ≠ id)
    (hs' : Sound { s with drain := some (.working ((id', msg) :: rest) stage') }) :
    Waiting id m k c { s with drain := some (.working ((id', msg) :: rest) stage') } where
  sound := hs'
  row := hw.row
  pending := hw.pending
  due := hw.due
  fresh msg' stage'' hc := by
    simp only [State.current, Option.some.injEq, Prod.mk.injEq] at hc
    exact absurd hc.1 hne
  progress := by
    obtain ⟨-, htodo, hle⟩ | ⟨todo, stage₁, hdr, hno, hall, hle⟩ := hw.progress
    · refine .inl ⟨by simp, fun todo stage'' hdr => ?_, hle⟩
      simp only [Option.some.injEq, Drain.working.injEq] at hdr
      rw [← hdr.1]
      exact htodo _ _ hd
    · have heq := hd.symm.trans hdr
      simp only [Option.some.injEq, Drain.working.injEq] at heq
      obtain ⟨rfl, -⟩ := heq
      exact .inr ⟨_, stage', rfl, hno, hall, hle⟩

/-- A new batch either has the message or is full of earlier ones. -/
theorem Waiting.query (hw : Waiting id m k c s) {cutoff : ℕ} {picks : List (MessageId × Message)}
    (hd : s.drain = some (.querying cutoff)) (hp : Picked s.rows cutoff picks)
    (hs' : Sound { s with drain := some (.working picks .waiting) }) :
    Waiting id m k c { s with drain := some (.working picks .waiting) } where
  sound := hs'
  row := hw.row
  pending := hw.pending
  due := hw.due
  fresh msg stage hc := by
    obtain ⟨rest, hdr⟩ := current_eq_some.mp hc
    simp only [Option.some.injEq, Drain.working.injEq] at hdr
    exact hdr.2.symm
  progress := by
    obtain ⟨hcut, -, hle⟩ | ⟨todo, stage, hdr, -⟩ := hw.progress
    · by_cases hmem : (id, m) ∈ picks
      · refine .inl ⟨by simp, fun todo stage hdr => ?_, hle⟩
        simp only [Option.some.injEq, Drain.working.injEq] at hdr
        rw [← hdr.1]
        exact hmem
      · obtain ⟨hlen, hall⟩ := hp.rest id m hw.row ⟨hw.pending, hcut cutoff hd⟩ hmem
        refine .inr ⟨picks, .waiting, rfl, hmem, hall, ?_⟩
        rw [hlen, Nat.mul_succ]
        change queuedBefore m s.rows + _ ≤ _
        omega
    · cases hd.symm.trans hdr

theorem Waiting.record (hw : Waiting id m k c s) (ha : admits s .record) {id' : MessageId}
    {msg : Message} {stage : Stage} (hc : s.current = some (id', msg, stage)) (hne : id' ≠ id) :
    Waiting id m k c (next s .record) := by
  obtain ⟨rest, hd⟩ := current_eq_some.mp hc
  have hdr : (next s .record).drain = some (.working rest .waiting) := by
    simp only [next, Outbox.record, hd]
  have hnow : (next s .record).now = s.now := by simp only [next, Outbox.record, hd]
  have hcount := queuedBefore_record hw.sound hw.due hc
  refine ⟨hw.sound.step ha, ?_, hw.pending, hnow ▸ hw.due, fun msg' stage' hcur => ?_, ?_⟩
  · refine pending_stays hw.sound ha hw.row hw.pending fun _ msg' stage' hcur => hne ?_
    have hhead := hc.symm.trans hcur
    simp only [Option.some.injEq, Prod.mk.injEq] at hhead
    exact hhead.1
  · obtain ⟨rest', hd'⟩ := current_eq_some.mp hcur
    simp only [hdr, Option.some.injEq, Drain.working.injEq] at hd'
    exact hd'.2.symm
  · have hnn := place_nonneg m msg
    rw [hdr]
    obtain ⟨-, htodo, hle⟩ | ⟨todo, stage₁, hd₁, hno, hall, hle⟩ := hw.progress
    · refine .inl ⟨by simp, fun todo stage' hd' => ?_, by omega⟩
      simp only [Option.some.injEq, Drain.working.injEq] at hd'
      rw [← hd'.1]
      have hmem := htodo _ _ hd
      simp only [List.mem_cons, Prod.mk.injEq] at hmem
      exact hmem.resolve_left fun h => hne h.1.symm
    · have heq := hd.symm.trans hd₁
      simp only [Option.some.injEq, Drain.working.injEq] at heq
      obtain ⟨rfl, -⟩ := heq
      have hone := place_of_notAfter (hw.sound.current_stored hc).2
        (hall (id', msg) List.mem_cons_self)
      refine .inr ⟨rest, .waiting, rfl, fun h => hno (List.mem_cons_of_mem _ h),
        fun p hp => hall p (List.mem_cons_of_mem _ hp), ?_⟩
      simp only [List.length_cons] at hle
      omega

theorem Waiting.stop (hw : Waiting id m k c s) (hs' : Sound s') (hrows : s'.rows = s.rows)
    (hnow : s'.now = s.now) (hd : s'.drain = none) : Waiting id m k c s' where
  sound := hs'
  row := hrows ▸ hw.row
  pending := hw.pending
  due := hnow ▸ hw.due
  fresh msg stage hc := by simp [State.current, hd] at hc
  progress := by
    refine .inl ⟨by simp [hd], by simp [hd], ?_⟩
    rw [hrows]
    obtain ⟨-, -, hle⟩ | ⟨todo, stage, hdr, -, -, hle⟩ := hw.progress
    · exact hle
    · have hlen := hw.sound.todo_length _ _ hdr
      rw [Nat.mul_succ] at hle
      omega

theorem Waiting.finish (hw : Waiting id m k c s) (ha : admits s .finish) :
    Waiting id m k (c + 1) (next s .finish) := by
  obtain ⟨stage, hd⟩ := ha
  have hs' : Sound (next s .finish) := hw.sound.step ⟨stage, hd⟩
  refine ⟨hs', hw.row, hw.pending, hw.due, fun msg stage hc => (nomatch hc), ?_⟩
  refine .inl ⟨fun cutoff h => (nomatch h), fun todo stage h => (nomatch h), ?_⟩
  obtain ⟨-, htodo, -⟩ | ⟨todo, stage₁, hdr, -, -, hle⟩ := hw.progress
  · exact absurd (htodo _ _ hd) List.not_mem_nil
  · have heq := hd.symm.trans hdr
    simp only [Option.some.injEq, Drain.working.injEq] at heq
    obtain ⟨rfl, -⟩ := heq
    exact hle

/-- Every step attempts the message or leaves it waiting, and a completed drain
is a batch less before it. -/
theorem Waiting.step (hw : Waiting id m k c s) (ha : admits s a)
    (hlate : ∀ id' job createdAt, a = .enqueue id' job createdAt →
      ¬notAfter (job.message createdAt) m) :
    (∃ n, noteOf s a = some n ∧ isAttempt id n = true) ∨
      Waiting id m k (c + (noteOf s a).toList.count .drained) (next s a) := by
  have hs' := hw.sound.step ha
  cases a with
  | register kind => exact .inr (hw.keep hs' hw.row le_rfl rfl le_rfl)
  | tick time => exact .inr (hw.keep hs' hw.row ha rfl le_rfl)
  | enqueue id' job createdAt =>
    have hrow := pending_stays hw.sound ha hw.row hw.pending (by simp)
    exact .inr (hw.keep hs' hrow le_rfl rfl
      (queuedBefore_enqueue hw.sound ha (hlate id' job createdAt rfl)).le)
  | prune =>
    have hrow := pending_stays hw.sound ha hw.row hw.pending (by simp)
    exact .inr (hw.keep hs' hrow le_rfl rfl (queuedBefore_prune m s))
  | wake =>
    refine .inr ⟨hs', hw.row, hw.pending, hw.due, fun msg stage hc => (nomatch hc), .inl ⟨?_, ?_, ?_⟩⟩
    · intro cutoff hd
      simp only [next, Option.some.injEq, Drain.querying.injEq] at hd
      exact hd ▸ hw.due
    · intro todo stage hd
      cases hd
    · obtain ⟨-, -, hle⟩ | ⟨todo, stage, hdr, -⟩ := hw.progress
      · exact hle
      · cases hdr.symm.trans ha
  | query picks =>
    obtain ⟨cutoff, hd, hp⟩ := ha
    exact .inr (hw.query hd hp hs')
  | callHandler =>
    obtain ⟨id', msg, hc, -⟩ := ha
    obtain ⟨rest, hd⟩ := current_eq_some.mp hc
    have hnote : noteOf s .callHandler = some (.called id') := by simp [noteOf, hc]
    by_cases hid : id' = id
    · exact .inl ⟨_, hnote, by simp [isAttempt, hid]⟩
    · rw [hnote]
      simp only [next, setStage, hd] at hs' ⊢
      exact .inr (hw.restage hd hid hs')
  | settleHandler error =>
    obtain ⟨id', msg, hc⟩ := ha
    obtain ⟨rest, hd⟩ := current_eq_some.mp hc
    have hid : id' ≠ id := by
      rintro rfl
      cases hw.fresh msg _ hc
    cases error with
    | none =>
      have hnote : noteOf s (.settleHandler none) = some (.returned id') := by simp [noteOf, hc]
      rw [hnote]
      simp only [next, setStage, hd] at hs' ⊢
      exact .inr (hw.restage hd hid hs')
    | some error =>
      have hnote : noteOf s (.settleHandler (some error)) = some (.threw id') := by
        simp [noteOf, hc]
      rw [hnote]
      simp only [next, setStage, hd] at hs' ⊢
      exact .inr (hw.restage hd hid hs')
  | record =>
    obtain ⟨id', msg, stage, hc, hrest⟩ := ha
    by_cases hid : id' = id
    · subst hid
      obtain rfl := hw.fresh msg stage hc
      exact .inl ⟨.unhandled id', by simp [noteOf, hc], by simp [isAttempt]⟩
    · have hnote : (noteOf s .record).toList.count .drained = 0 := by
        simp only [noteOf, hc, Option.bind_some]
        split <;> simp
      rw [hnote]
      exact .inr (hw.record ⟨id', msg, stage, hc, hrest⟩ hc hid)
  | finish => exact .inr (hw.finish ha)
  | crash => exact .inr (hw.stop hs' rfl rfl rfl)

/-- Enqueues from now on carry timestamps that put them behind the message. -/
def LaterThan (m : Message) (tr : History) : Prop :=
  ∀ e ∈ tr, ∀ id job createdAt, e.act = .enqueue id job createdAt →
    ¬notAfter (job.message createdAt) m

theorem Waiting.run (hw : Waiting id m k c s) (hr : Run machine s tr s') (hlate : LaterThan m tr) :
    (∃ n ∈ notes tr, isAttempt id n = true) ∨
      Waiting id m k (c + (notes tr).count .drained) s' := by
  induction hr with
  | nil => exact .inr (by simpa [notes] using hw)
  | @snoc tr u hr a ha ih =>
    rw [notes_append, notes_entry]
    obtain ⟨n, hn, hatt⟩ | hw' := ih fun e he => hlate e (List.mem_append_left _ he)
    · exact .inl ⟨n, List.mem_append_left _ hn, hatt⟩
    · have hlast := hlate (machine.entry u a) (by simp)
      obtain ⟨n, hn, hatt⟩ | hw'' := hw'.step ha hlast
      · exact .inl ⟨n, List.mem_append_right _ (by simp [hn]), hatt⟩
      · rw [List.count_append, ← Nat.add_assoc]
        exact .inr hw''

theorem Waiting.start (hs : Sound s) (hd : s.drain = none) (hrow : s.rows.lookup id = some m)
    (hdue : isDue s.now m) : Waiting id m (queuedBefore m s.rows) 0 s where
  sound := hs
  row := hrow
  pending := hdue.1
  due := hdue.2
  fresh msg stage hc := by simp [State.current, hd] at hc
  progress := .inl ⟨by simp [hd], by simp [hd], by omega⟩

/-- Delivery over every run of the outbox: what the table says about a message
is what happened to it, nothing but a delivered message disappears, and a message
that is due when a drain starts is reached within as many completed drains as
the messages up to it fill batches, whatever happens to the others. -/
theorem outbox_delivery (hr : Run machine (boot now) tr s) :
    (∀ id m, s.rows.lookup id = some m → m.attempts ≤ outboxMaxAttempts ∧
      (m.status = .sent → .returned id ∈ notes tr) ∧
      (m.status = .failed → outboxMaxAttempts ≤ (notes tr).countP (isFailure id))) ∧
    (∀ id m tr' s', s.rows.lookup id = some m → m.status ≠ .pending → Run machine s tr' s' →
      (∀ m', s'.rows.lookup id = some m' → m'.status = m.status) ∧
      ∀ n ∈ notes tr', isAttempt id n = false) ∧
    (∀ id id' m m' key, s.rows.lookup id = some m → s.rows.lookup id' = some m' →
      m.dedupeKey = some key → m'.dedupeKey = some key → id = id') ∧
    (∀ id m a, s.rows.lookup id = some m → machine.admits s a →
      (machine.next s a).rows.lookup id = none → m.status = .sent) ∧
    (∀ id m tr' s', s.rows.lookup id = some m → isDue s.now m → s.drain = none →
      Run machine (next s .wake) tr' s' → LaterThan m tr' →
      (queuedBefore m s.rows + (outboxBatchSize - 1)) / outboxBatchSize ≤
        (notes tr').count .drained →
      ∃ n ∈ notes tr', isAttempt id n = true) := by
  have hs := run_sound hr
  have ht := run_told hr
  refine ⟨fun id m h => ⟨(hs.counted id m h).le, ht.sent id m h, fun hst => ?_⟩,
    fun id m tr' s' h hst hr' => ?_, hs.dedupe, fun id m a h ha hgone => ?_,
    fun id m tr' s' h hdue hd hr' hlate hcount => ?_⟩
  · have hge := (hs.counted id m h).failed hst
    have htries := ht.tries id m h
    omega
  · have hclosed : Closed id m.status s := ⟨hs, hs.issued id m h, hst, .inr ⟨m, h, rfl⟩⟩
    obtain ⟨hend, hquiet⟩ := hclosed.run hr'
    refine ⟨fun m' h' => ?_, hquiet⟩
    obtain ⟨hnone, -⟩ | ⟨m₁, hm₁, hst₁⟩ := hend.row
    · cases hnone.symm.trans h'
    · obtain rfl := Option.some.inj (h'.symm.trans hm₁)
      exact hst₁
  · have hchange := row_change hs ha id
    change (next s a).rows.lookup id = none at hgone
    rw [h, hgone] at hchange
    cases hchange with
    | pruned hsent => exact hsent
  · have hstart := (Waiting.start hs hd h hdue).step (a := .wake) hd (by simp)
    obtain ⟨n, hn, -⟩ | hwait := hstart
    · cases hn
    obtain hatt | hend := hwait.run hr' hlate
    · exact hatt
    · have hlt := hend.lt
      simp only [noteOf, Option.toList_none, List.count_nil, Nat.zero_add, outboxBatchSize]
        at hlt hcount
      omega

def sampleJob : OutboxJob := ⟨"email", "to the provider", some "email:0:DISPUTED:6"⟩

def sampleQueued : Message := sampleJob.message 1000

def enqueueActions : List Act := [.register "email", .enqueue 0 sampleJob 1000]

def deliverActions : List Act :=
  [.query [(0, sampleQueued)], .callHandler, .settleHandler (some "smtp down"), .record, .finish]

def sampleOutbox : State := final machine (boot 1000) enqueueActions

theorem sample_picked : Picked sampleOutbox.rows 1000 [(0, sampleQueued)] where
  nodup := by simp
  stored p hp := by
    obtain rfl := List.mem_singleton.mp hp
    exact ⟨rfl, rfl, le_rfl⟩
  sorted := by simp
  length_le := by decide
  rest id m h hdue hno := by
    by_cases hid : id = 0
    · subst hid
      obtain rfl := Option.some.inj h
      exact absurd (List.mem_singleton.mpr rfl) hno
    · have hrows : sampleOutbox.rows = (∅ : Store MessageId Message).insert 0 sampleQueued := rfl
      rw [hrows, AList.lookup_insert_ne hid, AList.lookup_empty] at h
      cases h

theorem sample_delivery :
    (∀ m, (final machine (next sampleOutbox .wake) deliverActions).rows.lookup 0 = some m →
      m.attempts = 1 ∧ m.nextAttemptAt = 31000) ∧
    queuedBefore sampleQueued sampleOutbox.rows = 1 ∧
    ∃ n ∈ notes (history machine (next sampleOutbox .wake) deliverActions),
      isAttempt 0 n = true := by
  have hr : Run machine (boot 1000) (history machine (boot 1000) enqueueActions) sampleOutbox :=
    Run.of_actions _ _ ⟨trivial, List.not_mem_nil, trivial⟩
  have hr' : Run machine (next sampleOutbox .wake)
      (history machine (next sampleOutbox .wake) deliverActions)
      (final machine (next sampleOutbox .wake) deliverActions) :=
    Run.of_actions _ _ ⟨⟨1000, rfl, sample_picked⟩, ⟨0, sampleQueued, rfl, by decide⟩,
      ⟨0, sampleQueued, rfl⟩, ⟨0, sampleQueued, .threw "smtp down", rfl, by decide, by decide⟩,
      ⟨.waiting, rfl⟩, trivial⟩
  obtain ⟨-, -, -, -, hreach⟩ := outbox_delivery hr
  refine ⟨?_, rfl, hreach 0 sampleQueued _ _ rfl ⟨rfl, le_rfl⟩ rfl hr' ?_ (by decide)⟩
  · intro m hm
    obtain rfl := Option.some.inj hm
    exact ⟨rfl, rfl⟩
  · intro e he id job createdAt hact
    simp only [history, deliverActions, List.mem_cons, List.not_mem_nil, or_false] at he
    obtain rfl | rfl | rfl | rfl | rfl := he <;> cases hact

end Lolipay.Coordinator.Delivery

import Lolipay.Ledger.Runs
import Lolipay.Ledger.Storage

namespace Lolipay.Coordinator.Outbox

open Lolipay.Ledger.Storage Lolipay.Ledger.Runs

abbrev MessageId := ℕ

inductive OutboxStatus where
  | pending
  | sent
  | failed
  deriving DecidableEq, Repr

/-- A row of the outbox; times are in milliseconds. -/
structure Message where
  kind : String
  payload : String
  dedupeKey : Option String
  status : OutboxStatus
  attempts : ℕ
  lastError : Option String
  createdAt : ℕ
  sentAt : Option ℕ
  nextAttemptAt : ℕ
  deriving DecidableEq, Repr

structure OutboxJob where
  kind : String
  payload : String
  dedupeKey : Option String
  deriving DecidableEq, Repr

def outboxMaxAttempts : ℕ := 9
def outboxBatchSize : ℕ := 50
def outboxBackoffBaseMs : ℕ := 30000
def outboxBackoffCapMs : ℕ := 1800000
def outboxKeepSentMs : ℕ := 1209600000

def backoffFor (attempts : ℕ) : ℕ :=
  min (outboxBackoffBaseMs * 2 ^ (attempts - 1)) outboxBackoffCapMs

theorem backoffFor_pos (attempts : ℕ) : 0 < backoffFor attempts := by
  have hpow : 0 < 2 ^ (attempts - 1) := Nat.two_pow_pos _
  simp only [backoffFor, outboxBackoffBaseMs, outboxBackoffCapMs]
  omega

/-- How far the drain is with the first message that is left. -/
inductive Stage where
  | waiting
  | running
  | returned
  | threw (error : String)
  deriving DecidableEq, Repr

/-- A drain between two of its steps: it has read the clock, or it works through
the rows that its query returned. -/
inductive Drain where
  | querying (cutoff : ℕ)
  | working (todo : List (MessageId × Message)) (stage : Stage)

/-- The table, the clock, and what the process keeps in memory. `issued` is no
part of either: it records the ids that were ever given out. -/
structure State where
  rows : Store MessageId Message
  now : ℕ
  handlers : List String
  drain : Option Drain
  issued : List MessageId

/-- One step of anybody. `settleHandler` carries the error of a handler that threw. -/
inductive Act where
  | register (kind : String)
  | enqueue (id : MessageId) (job : OutboxJob) (createdAt : ℕ)
  | wake
  | query (picks : List (MessageId × Message))
  | callHandler
  | settleHandler (error : Option String)
  | record
  | finish
  | crash
  | prune
  | tick (time : ℕ)

/-- The order of the query: by the next attempt, then by creation. -/
def notAfter (m m' : Message) : Prop :=
  m.nextAttemptAt < m'.nextAttemptAt ∨
    m.nextAttemptAt = m'.nextAttemptAt ∧ m.createdAt ≤ m'.createdAt

instance (m m' : Message) : Decidable (notAfter m m') :=
  inferInstanceAs (Decidable (_ ∨ _))

def isDue (cutoff : ℕ) (m : Message) : Prop := m.status = .pending ∧ m.nextAttemptAt ≤ cutoff

/-- What the query may return: the first due rows, in order, equal ones in any. -/
structure Picked (rows : Store MessageId Message) (cutoff : ℕ)
    (picks : List (MessageId × Message)) : Prop where
  nodup : (picks.map (·.1)).Nodup
  stored : ∀ p ∈ picks, rows.lookup p.1 = some p.2 ∧ isDue cutoff p.2
  sorted : picks.Pairwise fun p q => notAfter p.2 q.2
  length_le : picks.length ≤ outboxBatchSize
  rest : ∀ id m, rows.lookup id = some m → isDue cutoff m → (id, m) ∉ picks →
    picks.length = outboxBatchSize ∧ ∀ p ∈ picks, notAfter p.2 m

def State.current (s : State) : Option (MessageId × Message × Stage) :=
  match s.drain with
  | some (.working ((id, msg) :: _) stage) => some (id, msg, stage)
  | _ => none

def admits (s : State) : Act → Prop
  | .register _ | .crash | .prune => True
  | .enqueue id _ _ => id ∉ s.issued
  | .wake => s.drain = none
  | .query picks => ∃ cutoff, s.drain = some (.querying cutoff) ∧ Picked s.rows cutoff picks
  | .callHandler => ∃ id msg, s.current = some (id, msg, .waiting) ∧ msg.kind ∈ s.handlers
  | .settleHandler _ => ∃ id msg, s.current = some (id, msg, .running)
  | .record => ∃ id msg stage, s.current = some (id, msg, stage) ∧ stage ≠ .running ∧
      (stage = .waiting → msg.kind ∉ s.handlers)
  | .finish => ∃ stage, s.drain = some (.working [] stage)
  | .tick time => s.now ≤ time

def OutboxJob.message (job : OutboxJob) (createdAt : ℕ) : Message where
  kind := job.kind
  payload := job.payload
  dedupeKey := job.dedupeKey
  status := .pending
  attempts := 0
  lastError := none
  createdAt := createdAt
  sentAt := none
  nextAttemptAt := createdAt

/-- The unique column, with `skipDuplicates`. -/
def isDuplicate (rows : Store MessageId Message) (job : OutboxJob) : Bool :=
  job.dedupeKey.isSome && rows.entries.any fun e => e.2.dedupeKey = job.dedupeKey

def enqueue (id : MessageId) (job : OutboxJob) (createdAt : ℕ) (s : State) : State :=
  { s with
    rows := if isDuplicate s.rows job then s.rows else s.rows.insert id (job.message createdAt)
    issued := id :: s.issued }

def updatePending (rows : Store MessageId Message) (id : MessageId) (data : Message → Message) :
    Store MessageId Message :=
  match rows.lookup id with
  | some m => if m.status = .pending then rows.insert id (data m) else rows
  | none => rows

def markSent (now : ℕ) (m : Message) : Message := { m with status := .sent, sentAt := some now }

/-- The attempts are counted from the row as the query returned it. -/
def markFailed (now : ℕ) (msg : Message) (error : String) (m : Message) : Message :=
  { m with
    attempts := msg.attempts + 1
    lastError := some error
    status := if outboxMaxAttempts ≤ msg.attempts + 1 then .failed else .pending
    nextAttemptAt := now + backoffFor (msg.attempts + 1) }

def recordData (now : ℕ) (msg : Message) : Stage → Message → Message
  | .returned => markSent now
  | .threw error => markFailed now msg (String.ofList (error.toList.take 500))
  | .waiting | .running =>
    markFailed now msg ("no handler registered for kind \"" ++ msg.kind ++ "\"")

def record (s : State) : State :=
  match s.drain with
  | some (.working ((id, msg) :: rest) stage) =>
    { s with
      rows := updatePending s.rows id (recordData s.now msg stage)
      drain := some (.working rest .waiting) }
  | _ => s

def setStage (stage : Stage) (s : State) : State :=
  match s.drain with
  | some (.working todo _) => { s with drain := some (.working todo stage) }
  | _ => s

def isPrunable (now : ℕ) (m : Message) : Bool :=
  m.status = .sent && m.sentAt.any fun sentAt => sentAt + outboxKeepSentMs < now

def prunable (s : State) : List MessageId :=
  s.rows.keys.filter fun id => (s.rows.lookup id).any (isPrunable s.now)

def next (s : State) : Act → State
  | .register kind => { s with handlers := kind :: s.handlers }
  | .enqueue id job createdAt => enqueue id job createdAt s
  | .wake => { s with drain := some (.querying s.now) }
  | .query picks => { s with drain := some (.working picks .waiting) }
  | .callHandler => setStage .running s
  | .settleHandler none => setStage .returned s
  | .settleHandler (some error) => setStage (.threw error) s
  | .record => record s
  | .finish => { s with drain := none }
  | .crash => { s with drain := none, handlers := [] }
  | .prune => { s with rows := (prunable s).foldl (fun rows id => rows.erase id) s.rows }
  | .tick time => { s with now := time }

inductive Note where
  | called (id : MessageId)
  | returned (id : MessageId)
  | threw (id : MessageId)
  | unhandled (id : MessageId)
  | drained
  deriving DecidableEq, Repr

def noteOf (s : State) : Act → Option Note
  | .callHandler => s.current.map fun c => .called c.1
  | .settleHandler none => s.current.map fun c => .returned c.1
  | .settleHandler (some _) => s.current.map fun c => .threw c.1
  | .record => s.current.bind fun c => if c.2.2 = .waiting then some (.unhandled c.1) else none
  | .finish => some .drained
  | _ => none

def machine : Machine State Act (Option Note) := ⟨admits, next, noteOf⟩

abbrev History := List (Entry State Act (Option Note))

def notes (tr : History) : List Note := tr.filterMap fun e => e.out

def boot (now : ℕ) : State := ⟨∅, now, [], none, []⟩

def isFailure (id : MessageId) (n : Note) : Bool := n = .threw id || n = .unhandled id

def isAttempt (id : MessageId) (n : Note) : Bool := n = .called id || n = .unhandled id

variable {s s' : State} {a : Act} {id : MessageId} {m : Message}

/-- A message keeps the rules on its own attempts. -/
structure Counted (m : Message) : Prop where
  le : m.attempts ≤ outboxMaxAttempts
  pending : m.status = .pending → m.attempts < outboxMaxAttempts
  failed : m.status = .failed → outboxMaxAttempts ≤ m.attempts

/-- What every reachable outbox satisfies: the rows that a drain has in hand are
pending and still as its query returned them. -/
structure Sound (s : State) : Prop where
  issued : ∀ id m, s.rows.lookup id = some m → id ∈ s.issued
  counted : ∀ id m, s.rows.lookup id = some m → Counted m
  dedupe : ∀ id id' m m' key, s.rows.lookup id = some m → s.rows.lookup id' = some m' →
    m.dedupeKey = some key → m'.dedupeKey = some key → id = id'
  todo_nodup : ∀ todo stage, s.drain = some (.working todo stage) → (todo.map (·.1)).Nodup
  todo_length : ∀ todo stage, s.drain = some (.working todo stage) →
    todo.length ≤ outboxBatchSize
  todo_stored : ∀ todo stage, s.drain = some (.working todo stage) → ∀ p ∈ todo,
    s.rows.lookup p.1 = some p.2 ∧ p.2.status = .pending

theorem current_eq_some {c : MessageId × Message × Stage} :
    s.current = some c ↔
      ∃ rest, s.drain = some (.working ((c.1, c.2.1) :: rest) c.2.2) := by
  obtain ⟨id, msg, stage⟩ := c
  rw [State.current]
  split
  next id' msg' rest stage' hd =>
    simp [hd]
    tauto
  next hno =>
    simp only [reduceCtorEq, false_iff, not_exists]
    intro rest hd
    exact hno _ _ _ _ hd

theorem current_of_drain {msg : Message} {rest : List (MessageId × Message)} {stage : Stage}
    (hd : s.drain = some (.working ((id, msg) :: rest) stage)) :
    s.current = some (id, msg, stage) := by
  simp only [State.current, hd]

theorem Sound.current_stored (hs : Sound s) {msg : Message} {stage : Stage}
    (hc : s.current = some (id, msg, stage)) :
    s.rows.lookup id = some msg ∧ msg.status = .pending := by
  obtain ⟨rest, hd⟩ := current_eq_some.mp hc
  exact hs.todo_stored _ _ hd (id, msg) List.mem_cons_self

/-- What one step can do to one row. -/
inductive RowChange (s : State) (id : MessageId) : Act → Option Message → Option Message → Prop
  | same (a : Act) (r : Option Message) : RowChange s id a r r
  | enqueued {job : OutboxJob} {createdAt : ℕ} (hnew : isDuplicate s.rows job = false)
      (hid : id ∉ s.issued) :
      RowChange s id (.enqueue id job createdAt) none (some (job.message createdAt))
  | recorded {msg : Message} {stage : Stage} (hc : s.current = some (id, msg, stage))
      (hst : stage ≠ .running) :
      RowChange s id .record (some msg) (some (recordData s.now msg stage msg))
  | pruned {m : Message} (hst : m.status = .sent) : RowChange s id .prune (some m) none

theorem lookup_updatePending (rows : Store MessageId Message) (data : Message → Message)
    (hrow : rows.lookup id = some m) (hst : m.status = .pending) (id' : MessageId) :
    (updatePending rows id data).lookup id' =
      if id' = id then some (data m) else rows.lookup id' := by
  simp only [updatePending, hrow, hst, if_true]
  by_cases h : id' = id
  · subst h
    simp
  · simp [h, AList.lookup_insert_ne h]

theorem lookup_prune (s : State) (id : MessageId) :
    (next s .prune).rows.lookup id =
      if (s.rows.lookup id).any (isPrunable s.now) then none else s.rows.lookup id := by
  simp only [next, lookup_erases, prunable, List.mem_filter]
  cases h : s.rows.lookup id with
  | none => simp
  | some m =>
    have hmem : id ∈ s.rows.keys := AList.mem_keys.mp (AList.lookup_isSome.mp (by rw [h]; rfl))
    simp [hmem]

theorem setStage_frame (stage : Stage) (s : State) :
    (setStage stage s).rows = s.rows ∧ (setStage stage s).issued = s.issued := by
  rw [setStage]
  split <;> exact ⟨rfl, rfl⟩

theorem next_settleHandler (s : State) (error : Option String) :
    next s (.settleHandler error) = setStage (error.elim .returned .threw) s := by
  cases error <;> rfl

theorem row_change (hs : Sound s) (ha : admits s a) (id : MessageId) :
    RowChange s id a (s.rows.lookup id) ((next s a).rows.lookup id) := by
  cases a with
  | register | wake | query | finish | crash | tick => exact .same _ _
  | callHandler =>
    rw [next, (setStage_frame _ s).1]
    exact .same _ _
  | settleHandler error =>
    rw [next_settleHandler, (setStage_frame _ s).1]
    exact .same _ _
  | enqueue id' job createdAt =>
    simp only [next, enqueue]
    split
    next => exact .same _ _
    next hdup =>
      by_cases h : id = id'
      · subst h
        have hnone : s.rows.lookup id = none := by
          by_contra hne
          obtain ⟨m, hm⟩ := Option.ne_none_iff_exists'.mp hne
          exact ha (hs.issued id m hm)
        rw [hnone, AList.lookup_insert]
        exact .enqueued (by simpa using hdup) ha
      · rw [AList.lookup_insert_ne h]
        exact .same _ _
  | record =>
    obtain ⟨id', msg, stage, hc, hst, -⟩ := ha
    obtain ⟨hrow, hpend⟩ := hs.current_stored hc
    obtain ⟨rest, hd⟩ := current_eq_some.mp hc
    simp only [next, record, hd, lookup_updatePending _ _ hrow hpend]
    split
    next h =>
      subst h
      rw [hrow]
      exact .recorded hc hst
    next => exact .same _ _
  | prune =>
    rw [lookup_prune]
    split
    next h =>
      cases hrow : s.rows.lookup id with
      | none => exact .same _ _
      | some m =>
        simp only [hrow, Option.any_some, isPrunable, Bool.and_eq_true, decide_eq_true_eq] at h
        exact .pruned h.1
    next => exact .same _ _

theorem issued_next (s : State) (a : Act) (h : id ∈ s.issued) : id ∈ (next s a).issued := by
  cases a with
  | enqueue id' job createdAt => exact List.mem_cons_of_mem _ h
  | register | wake | query | finish | crash | prune | tick => exact h
  | callHandler =>
    rw [next, (setStage_frame _ s).2]
    exact h
  | settleHandler error =>
    rw [next_settleHandler, (setStage_frame _ s).2]
    exact h
  | record =>
    simp only [next, record]
    split <;> exact h

theorem row_origin (hs : Sound s) (ha : admits s a) {m' : Message}
    (hrow : (next s a).rows.lookup id = some m') :
    s.rows.lookup id = some m' ∨
    (∃ job createdAt, a = .enqueue id job createdAt ∧ isDuplicate s.rows job = false ∧
      m' = job.message createdAt) ∨
    ∃ msg stage, a = .record ∧ s.current = some (id, msg, stage) ∧ stage ≠ .running ∧
      s.rows.lookup id = some msg ∧ msg.status = .pending ∧
      m' = recordData s.now msg stage msg := by
  have h := row_change hs ha id
  rw [hrow] at h
  generalize hr : s.rows.lookup id = r at h
  cases h with
  | same => exact .inl rfl
  | enqueued hnew hid => exact .inr (.inl ⟨_, _, rfl, hnew, rfl⟩)
  | recorded hc hst =>
    exact .inr (.inr ⟨_, _, rfl, hc, hst, rfl, (hs.current_stored hc).2, rfl⟩)

theorem pending_stays (hs : Sound s) (ha : admits s a) (hrow : s.rows.lookup id = some m)
    (hst : m.status = .pending)
    (hne : a = .record → ∀ msg stage, s.current ≠ some (id, msg, stage)) :
    (next s a).rows.lookup id = some m := by
  have h := row_change hs ha id
  rw [hrow] at h
  generalize (next s a).rows.lookup id = r at h
  cases h with
  | same => rfl
  | recorded hc => exact absurd hc (hne rfl _ _)
  | pruned hsent => cases hst.symm.trans hsent

@[simp] theorem recordData_dedupeKey (now : ℕ) (msg : Message) (stage : Stage) (m : Message) :
    (recordData now msg stage m).dedupeKey = m.dedupeKey := by
  cases stage <;> rfl

theorem recordData_cases (now : ℕ) (msg : Message) (stage : Stage) (m : Message) :
    (stage = .returned ∧ recordData now msg stage m = markSent now m) ∨
    (stage ≠ .returned ∧ ∃ error, recordData now msg stage m = markFailed now msg error m) := by
  cases stage with
  | returned => exact .inl ⟨rfl, rfl⟩
  | waiting | running | threw => exact .inr ⟨by simp, _, rfl⟩

theorem Counted.message (job : OutboxJob) (createdAt : ℕ) : Counted (job.message createdAt) :=
  ⟨Nat.zero_le _, fun _ => Nat.succ_pos _, fun h => nomatch h⟩

theorem Counted.record (hm : Counted m) (hst : m.status = .pending) (now : ℕ) (stage : Stage) :
    Counted (recordData now m stage m) := by
  have hlt := hm.pending hst
  obtain ⟨-, heq⟩ | ⟨-, error, heq⟩ := recordData_cases now m stage m
  · rw [heq]
    exact ⟨hm.le, by simp [markSent], by simp [markSent]⟩
  · rw [heq]
    refine ⟨hlt, ?_, ?_⟩
    · simp only [markFailed]
      split
      next => intro h; cases h
      next h => intro _; omega
    · simp only [markFailed]
      split
      next h => intro _; exact h
      next => intro h; cases h

theorem isDuplicate_of_key {rows : Store MessageId Message} {job : OutboxJob} {key : String}
    (hrow : rows.lookup id = some m) (hm : m.dedupeKey = some key)
    (hjob : job.dedupeKey = some key) : isDuplicate rows job = true := by
  simp only [isDuplicate, hjob, Option.isSome_some, Bool.true_and, List.any_eq_true,
    decide_eq_true_eq]
  exact ⟨⟨id, m⟩, AList.mem_lookup_iff.mp hrow, hm⟩

/-- What one step can do to the drain. -/
inductive DrainChange (s : State) : Act → Option Drain → Prop
  | same {d : Option Drain} (a : Act) (hrec : a ≠ .record) (hd : s.drain = d) : DrainChange s a d
  | woke : DrainChange s .wake (some (.querying s.now))
  | queried {cutoff : ℕ} {picks : List (MessageId × Message)}
      (hd : s.drain = some (.querying cutoff)) (hp : Picked s.rows cutoff picks) :
      DrainChange s (.query picks) (some (.working picks .waiting))
  | staged {todo : List (MessageId × Message)} {stage stage' : Stage} (a : Act) (hrec : a ≠ .record)
      (hd : s.drain = some (.working todo stage)) : DrainChange s a (some (.working todo stage'))
  | recorded {id : MessageId} {msg : Message} {rest : List (MessageId × Message)} {stage : Stage}
      (hd : s.drain = some (.working ((id, msg) :: rest) stage)) :
      DrainChange s .record (some (.working rest .waiting))
  | stopped (a : Act) (hrec : a ≠ .record) : DrainChange s a none

theorem drain_change (ha : admits s a) : DrainChange s a (next s a).drain := by
  cases a with
  | register | enqueue | prune | tick => exact .same _ (by simp) rfl
  | wake => exact .woke
  | query picks =>
    obtain ⟨cutoff, hd, hp⟩ := ha
    exact .queried hd hp
  | callHandler =>
    obtain ⟨id, msg, hc, -⟩ := ha
    obtain ⟨rest, hd⟩ := current_eq_some.mp hc
    simp only [next, setStage, hd]
    exact .staged _ (by simp) hd
  | settleHandler error =>
    obtain ⟨id, msg, hc⟩ := ha
    obtain ⟨rest, hd⟩ := current_eq_some.mp hc
    rw [next_settleHandler]
    simp only [setStage, hd]
    exact .staged _ (by simp) hd
  | record =>
    obtain ⟨id, msg, stage, hc, -⟩ := ha
    obtain ⟨rest, hd⟩ := current_eq_some.mp hc
    simp only [next, record, hd]
    exact .recorded hd
  | finish | crash => exact .stopped _ (by simp)

theorem Sound.boot (now : ℕ) : Sound (boot now) where
  issued id m h := by simp [Outbox.boot] at h
  counted id m h := by simp [Outbox.boot] at h
  dedupe id id' m m' key h := by simp [Outbox.boot] at h
  todo_nodup todo stage h := nomatch h
  todo_length todo stage h := nomatch h
  todo_stored todo stage h := nomatch h

theorem Sound.dedupe_next (hs : Sound s) (ha : admits s a) {id' : MessageId} {m' : Message}
    {key : String} (h : (next s a).rows.lookup id = some m)
    (h' : (next s a).rows.lookup id' = some m') (hm : m.dedupeKey = some key)
    (hm' : m'.dedupeKey = some key) : id = id' := by
  -- A row of the next state is new, or its key was in the table before.
  have horigin (j : MessageId) (n : Message) (hj : (next s a).rows.lookup j = some n)
      (hn : n.dedupeKey = some key) :
      (∃ n₀, s.rows.lookup j = some n₀ ∧ n₀.dedupeKey = some key) ∨
      ∃ job createdAt, a = .enqueue j job createdAt ∧ isDuplicate s.rows job = false ∧
        job.dedupeKey = some key := by
    obtain hold | ⟨job, createdAt, hact, hnew, rfl⟩ | ⟨msg, stage, -, -, -, hmsg, -, rfl⟩ :=
      row_origin hs ha hj
    · exact .inl ⟨n, hold, hn⟩
    · exact .inr ⟨job, createdAt, hact, hnew, hn⟩
    · exact .inl ⟨msg, hmsg, by simpa using hn⟩
  obtain ⟨n, hn, hk⟩ | ⟨job, createdAt, rfl, hnew, hk⟩ := horigin id m h hm
  · obtain ⟨n', hn', hk'⟩ | ⟨job, createdAt, rfl, hnew, hk'⟩ := horigin id' m' h' hm'
    · exact hs.dedupe id id' n n' key hn hn' hk hk'
    · rw [isDuplicate_of_key hn hk hk'] at hnew
      cases hnew
  · obtain ⟨n', hn', hk'⟩ | ⟨job', createdAt', hact, -, -⟩ := horigin id' m' h' hm'
    · rw [isDuplicate_of_key hn' hk' hk] at hnew
      cases hnew
    · exact (Act.enqueue.inj hact).1

theorem Sound.step (hs : Sound s) (ha : admits s a) : Sound (next s a) where
  issued id m h := by
    obtain hold | ⟨job, createdAt, rfl, -, -⟩ | ⟨msg, stage, -, -, -, hmsg, -⟩ := row_origin hs ha h
    · exact issued_next s a (hs.issued id m hold)
    · exact List.mem_cons_self
    · exact issued_next s a (hs.issued id msg hmsg)
  counted id m h := by
    obtain hold | ⟨job, createdAt, -, -, rfl⟩ | ⟨msg, stage, -, -, -, hmsg, hpend, rfl⟩ :=
      row_origin hs ha h
    · exact hs.counted id m hold
    · exact .message job createdAt
    · exact (hs.counted id msg hmsg).record hpend s.now stage
  dedupe id id' m m' key h h' hm hm' := hs.dedupe_next ha h h' hm hm'
  todo_nodup todo stage h := by
    have hc := drain_change ha
    rw [h] at hc
    cases hc with
    | same _ _ hd | staged _ _ hd => exact hs.todo_nodup _ _ hd
    | queried _ hp => exact hp.nodup
    | recorded hd => exact (List.nodup_cons.mp (hs.todo_nodup _ _ hd)).2
  todo_length todo stage h := by
    have hc := drain_change ha
    rw [h] at hc
    cases hc with
    | same _ _ hd | staged _ _ hd => exact hs.todo_length _ _ hd
    | queried _ hp => exact hp.length_le
    | recorded hd => exact (Nat.le_succ _).trans (hs.todo_length _ _ hd)
  todo_stored todo stage h p hp := by
    have hc := drain_change ha
    rw [h] at hc
    cases hc with
    | same _ hrec hd | staged _ hrec hd =>
      obtain ⟨hrow, hst⟩ := hs.todo_stored _ _ hd p hp
      exact ⟨pending_stays hs ha hrow hst fun h => absurd h hrec, hst⟩
    | queried _ hpicked => exact ⟨(hpicked.stored p hp).1, (hpicked.stored p hp).2.1⟩
    | recorded hd =>
      obtain ⟨hrow, hst⟩ := hs.todo_stored _ _ hd p (List.mem_cons_of_mem _ hp)
      refine ⟨pending_stays hs ha hrow hst fun _ msg stage hcur => ?_, hst⟩
      have hhead := (current_of_drain hd).symm.trans hcur
      simp only [Option.some.injEq, Prod.mk.injEq] at hhead
      obtain ⟨rfl, -⟩ := hhead
      have hnodup := hs.todo_nodup _ _ hd
      rw [List.map_cons] at hnodup
      exact (List.nodup_cons.mp hnodup).1 (List.mem_map.mpr ⟨p, hp, rfl⟩)

theorem run_sound {now : ℕ} {tr : History} (hr : Run machine (boot now) tr s) : Sound s :=
  hr.invariant (.boot now) fun _ _ hs ha => hs.step ha

/-- One failure that the drain has seen and not recorded yet. -/
def unrecorded (s : State) (id : MessageId) : ℕ :=
  match s.current with
  | some (id', _, .threw _) => if id' = id then 1 else 0
  | _ => 0

/-- The notes of a run vouch for what the table says. -/
structure Told (ns : List Note) (s : State) : Prop where
  sent : ∀ id m, s.rows.lookup id = some m → m.status = .sent → .returned id ∈ ns
  returning : ∀ id msg, s.current = some (id, msg, .returned) → .returned id ∈ ns
  tries : ∀ id m, s.rows.lookup id = some m →
    m.attempts + unrecorded s id ≤ ns.countP (isFailure id)

theorem current_next (ha : admits s a) {msg : Message} {stage : Stage}
    (hc : (next s a).current = some (id, msg, stage)) :
    s.current = some (id, msg, stage) ∨ stage = .waiting ∨ stage = .running ∨
      (stage = .returned ∧ noteOf s a = some (.returned id)) ∨
      (∃ error, stage = .threw error) ∧ noteOf s a = some (.threw id) := by
  have hsame (h : (next s a).current = s.current) : s.current = some (id, msg, stage) :=
    h ▸ hc
  cases a with
  | register | enqueue | prune | tick => exact .inl (hsame rfl)
  | wake | finish | crash => cases hc
  | query picks =>
    obtain ⟨rest, hd⟩ := current_eq_some.mp hc
    simp only [next, Option.some.injEq, Drain.working.injEq] at hd
    exact .inr (.inl hd.2.symm)
  | callHandler =>
    obtain ⟨id', msg', hcur, -⟩ := ha
    obtain ⟨rest, hd⟩ := current_eq_some.mp hcur
    simp only [next, setStage, hd, State.current, Option.some.injEq, Prod.mk.injEq] at hc
    exact .inr (.inr (.inl hc.2.2.symm))
  | settleHandler error =>
    obtain ⟨id', msg', hcur⟩ := ha
    obtain ⟨rest, hd⟩ := current_eq_some.mp hcur
    cases error with
    | none =>
      simp only [next, setStage, hd, State.current, Option.some.injEq, Prod.mk.injEq] at hc
      obtain ⟨rfl, -, rfl⟩ := hc
      exact .inr (.inr (.inr (.inl ⟨rfl, by simp only [noteOf, hcur, Option.map_some]⟩)))
    | some error =>
      simp only [next, setStage, hd, State.current, Option.some.injEq, Prod.mk.injEq] at hc
      obtain ⟨rfl, -, rfl⟩ := hc
      exact .inr (.inr (.inr (.inr ⟨⟨error, rfl⟩, by simp only [noteOf, hcur, Option.map_some]⟩)))
  | record =>
    obtain ⟨id', msg', stage', hcur, -⟩ := ha
    obtain ⟨rest, hd⟩ := current_eq_some.mp hcur
    obtain ⟨rest', hd'⟩ := current_eq_some.mp hc
    simp only [next, record, hd, Option.some.injEq, Drain.working.injEq] at hd'
    exact .inr (.inl hd'.2.symm)

theorem unrecorded_of_ne (h : ∀ msg error, s.current ≠ some (id, msg, .threw error)) :
    unrecorded s id = 0 := by
  rw [unrecorded]
  split
  next id' msg error hc =>
    split
    next hid => exact absurd (hid ▸ hc) (h msg error)
    next => rfl
  next => rfl

theorem unrecorded_of_threw {msg : Message} {error : String}
    (hc : s.current = some (id, msg, .threw error)) : unrecorded s id = 1 := by
  simp only [unrecorded, hc, if_true]

theorem unrecorded_next (ha : admits s a) (id : MessageId) :
    unrecorded (next s a) id ≤ unrecorded s id + (noteOf s a).toList.countP (isFailure id) := by
  by_cases h : ∃ msg error, (next s a).current = some (id, msg, .threw error)
  · obtain ⟨msg, error, hc⟩ := h
    rw [unrecorded_of_threw hc]
    obtain hold | hst | hst | ⟨hst, -⟩ | ⟨-, hnote⟩ := current_next ha hc
    · rw [unrecorded_of_threw hold]
      omega
    · cases hst
    · cases hst
    · cases hst
    · simp [hnote, isFailure]
  · rw [unrecorded_of_ne fun msg error hc => h ⟨msg, error, hc⟩]
    omega

theorem Told.step {ns : List Note} (hs : Sound s) (ht : Told ns s) (ha : admits s a) :
    Told (ns ++ (noteOf s a).toList) (next s a) where
  sent id m h hst := by
    apply List.mem_append_left
    obtain hold | ⟨job, createdAt, -, -, rfl⟩ | ⟨msg, stage, -, hc, -, -, -, rfl⟩ :=
      row_origin hs ha h
    · exact ht.sent id m hold hst
    · cases hst
    · obtain ⟨rfl, -⟩ | ⟨-, error, heq⟩ := recordData_cases s.now msg stage msg
      · exact ht.returning id msg hc
      · rw [heq] at hst
        simp only [markFailed] at hst
        split at hst <;> cases hst
  returning id msg hc := by
    obtain hold | hst | hst | ⟨-, hnote⟩ | ⟨⟨error, hst⟩, -⟩ := current_next ha hc
    · exact List.mem_append_left _ (ht.returning id msg hold)
    · cases hst
    · cases hst
    · simp [hnote]
    · cases hst
  tries id m h := by
    rw [List.countP_append]
    have hdebt := unrecorded_next ha id
    obtain hold | ⟨job, createdAt, rfl, -, rfl⟩ | ⟨msg, stage, rfl, hc, hrun, hmsg, -, rfl⟩ :=
      row_origin hs ha h
    · have := ht.tries id m hold
      omega
    · -- The id is new, so the drain cannot have it in hand.
      have hnone : unrecorded s id = 0 := by
        refine unrecorded_of_ne fun msg error hc => ha ?_
        exact hs.issued id msg (hs.current_stored hc).1
      simp only [OutboxJob.message]
      omega
    · have htries := ht.tries id msg hmsg
      have hcleared : unrecorded (next s .record) id = 0 := by
        apply unrecorded_of_ne
        intro msg' error hc'
        obtain ⟨rest, hd⟩ := current_eq_some.mp hc
        obtain ⟨rest', hd'⟩ := current_eq_some.mp hc'
        simp only [next, record, hd, Option.some.injEq, Drain.working.injEq] at hd'
        cases hd'.2
      rw [hcleared]
      cases stage with
      | returned =>
        simp only [recordData, markSent]
        omega
      | threw error =>
        rw [unrecorded_of_threw hc] at htries
        simp only [recordData, markFailed]
        omega
      | waiting =>
        have hnote : noteOf s .record = some (.unhandled id) := by simp [noteOf, hc]
        have hone : ((noteOf s .record).toList).countP (isFailure id) = 1 := by
          simp [hnote, isFailure]
        simp only [recordData, markFailed]
        omega
      | running => exact absurd rfl hrun

theorem notes_append (tr tr' : History) : notes (tr ++ tr') = notes tr ++ notes tr' := by
  simp [notes]

theorem notes_entry (s : State) (a : Act) : notes [machine.entry s a] = (noteOf s a).toList := by
  cases h : noteOf s a <;> simp [notes, Machine.entry, machine, h]

theorem run_told {now : ℕ} {tr : History} (hr : Run machine (boot now) tr s) :
    Told (notes tr) s := by
  induction hr with
  | nil =>
    refine ⟨fun id m h => ?_, fun id msg h => ?_, fun id m h => ?_⟩
    · simp [boot] at h
    · cases h
    · simp [boot] at h
  | @snoc tr u hr a ha ih =>
    rw [notes_append, notes_entry]
    exact ih.step (run_sound hr) ha

variable {tr tr' : History} {now : ℕ}

/-- A message that is sent or failed is out of the drains' reach: it stays as it
is, or, once sent, is deleted. -/
structure Closed (id : MessageId) (status : OutboxStatus) (s : State) : Prop where
  sound : Sound s
  issued : id ∈ s.issued
  ended : status ≠ .pending
  row : (s.rows.lookup id = none ∧ status = .sent) ∨
    ∃ m, s.rows.lookup id = some m ∧ m.status = status

theorem Closed.not_current {status : OutboxStatus} (hc : Closed id status s) {msg : Message}
    {stage : Stage} : s.current ≠ some (id, msg, stage) := by
  intro hcur
  obtain ⟨hrow, hst⟩ := hc.sound.current_stored hcur
  obtain ⟨hnone, -⟩ | ⟨m, hm, hstatus⟩ := hc.row
  · cases hnone.symm.trans hrow
  · obtain rfl := Option.some.inj (hrow.symm.trans hm)
    exact hc.ended (hstatus.symm.trans hst)

theorem Closed.step {status : OutboxStatus} (hc : Closed id status s) (ha : admits s a) :
    Closed id status (next s a) where
  sound := hc.sound.step ha
  issued := issued_next s a hc.issued
  ended := hc.ended
  row := by
    have h := row_change hc.sound ha id
    obtain ⟨hnone, hsent⟩ | ⟨m, hm, hstatus⟩ := hc.row
    · rw [hnone] at h
      generalize (next s a).rows.lookup id = r at h
      cases h with
      | same => exact .inl ⟨rfl, hsent⟩
      | enqueued _ hid => exact absurd hc.issued hid
    · rw [hm] at h
      generalize (next s a).rows.lookup id = r at h
      cases h with
      | same => exact .inr ⟨m, rfl, hstatus⟩
      | recorded hcur => exact absurd hcur hc.not_current
      | pruned hst => exact .inl ⟨rfl, hstatus.symm.trans hst⟩

theorem Closed.quiet {status : OutboxStatus} (hc : Closed id status s) :
    ∀ n, noteOf s a = some n → isAttempt id n = false := by
  intro n hn
  by_contra hatt
  have hcur : ∃ msg stage, s.current = some (id, msg, stage) := by
    cases a with
    | callHandler =>
      obtain ⟨⟨id', msg, stage⟩, hcur, rfl⟩ := Option.map_eq_some_iff.mp hn
      obtain rfl : id' = id := by simpa [isAttempt] using hatt
      exact ⟨msg, stage, hcur⟩
    | record =>
      obtain ⟨⟨id', msg, stage⟩, hcur, hsome⟩ := Option.bind_eq_some_iff.mp hn
      split at hsome
      next =>
        obtain rfl := Option.some.inj hsome
        obtain rfl : id' = id := by simpa [isAttempt] using hatt
        exact ⟨msg, stage, hcur⟩
      next => cases hsome
    | settleHandler error =>
      cases error <;>
      · obtain ⟨c, -, rfl⟩ := Option.map_eq_some_iff.mp hn
        simp [isAttempt] at hatt
    | finish =>
      obtain rfl := Option.some.inj hn
      simp [isAttempt] at hatt
    | register | enqueue | wake | query | crash | prune | tick => cases hn
  obtain ⟨msg, stage, hcur⟩ := hcur
  exact hc.not_current hcur

/-- Once a message is closed, no later drain touches it. -/
theorem Closed.run {status : OutboxStatus} (hc : Closed id status s) (hr : Run machine s tr s') :
    Closed id status s' ∧ ∀ n ∈ notes tr, isAttempt id n = false := by
  induction hr with
  | nil => exact ⟨hc, by simp [notes]⟩
  | @snoc tr u hr a ha ih =>
    refine ⟨ih.1.step ha, fun n hn => ?_⟩
    rw [notes_append, notes_entry] at hn
    obtain hn | hn := List.mem_append.mp hn
    · exact ih.2 n hn
    · exact ih.1.quiet n (Option.mem_toList.mp hn)

end Lolipay.Coordinator.Outbox

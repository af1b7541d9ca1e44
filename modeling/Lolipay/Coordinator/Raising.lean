import Lolipay.Ledger.Rows
import Lolipay.Coordinator.Alerts

namespace Lolipay.Coordinator.Raising

open Lolipay.Ledger.Storage Lolipay.Ledger.Rows
open Lolipay.Script.Units Lolipay.Coordinator.Alerts

def reminderIntervalMs : ℤ := 6 * 60 * 60 * 1000
def urgentReminderIntervalMs : ℤ := 15 * 60 * 1000
def clearAfterMs : ℤ := 3 * urgentReminderIntervalMs

structure AlertState where
  fingerprint : Text
  lastSentAt : ℤ
  firstSeenAt : ℤ
  sendCount : ℕ
  deriving DecidableEq, Repr

/-- A message for the webhook. The kind is always that of an alert. -/
structure AlertJob where
  text : Text
  time : ℤ
  dedupeKey : Option Text
  deriving DecidableEq, Repr

structure Board where
  alertState : Store Text AlertState
  outbox : List AlertJob

/-- Whether the webhook is configured, whether the database answers the read and
takes the writes, and the hash of the platform. -/
structure Surroundings where
  alertWebhookUrl : Bool
  findMany : Bool
  writes : Bool
  sha256Hex : Text → Text

def colon : UInt16 := 58

def familyOf (key : Text) : Text := key.takeWhile (· ≠ colon)

def inScope (scope : List Text) (key : Text) : Bool := scope.contains (familyOf key)

def mineOf (scope : List Text) (alerts : List Alert) : List Alert :=
  alerts.filter fun a => inScope scope a.key

def ownedKnown (scope : List Text) (known : Store Text AlertState) : List (Text × AlertState) :=
  (known.entries.map fun e => (e.1, e.2)).filter fun k => inScope scope k.1

def byKey (known : List (Text × AlertState)) (key : Text) : Option AlertState :=
  (known.find? fun k => k.1 == key).map (·.2)

def intervalOf : Urgency → ℤ
  | .urgent => urgentReminderIntervalMs
  | .routine => reminderIntervalMs

/-- An alert is sent if it is new, if it changed, or if its reminder is due. -/
def isDue (now : ℤ) (a : Alert) : Option AlertState → Bool
  | none => true
  | some seen => seen.fingerprint ≠ a.fingerprint || intervalOf a.urgency ≤ now - seen.lastSentAt

def dueAlerts (scope : List Text) (alerts : List Alert) (now : ℤ) (known : Store Text AlertState) :
    List Alert :=
  (mineOf scope alerts).filter fun a => isDue now a (byKey (ownedKnown scope known) a.key)

def clearedKeys (scope : List Text) (alerts : List Alert) (incomplete : List Text) (now : ℤ)
    (known : Store Text AlertState) : List Text :=
  (((((ownedKnown scope known).filter
    fun k => !((mineOf scope alerts).map (·.key)).contains k.1).filter
    fun k => clearAfterMs ≤ now - k.2.lastSentAt).map (·.1)).filter
    fun key => !incomplete.contains (familyOf key))

/-- The column is unique where it is set, and a duplicate is skipped. -/
def enqueue (job : AlertJob) (s : Board) : Board :=
  if job.dedupeKey.isSome && s.outbox.any (·.dedupeKey = job.dedupeKey) then s
  else { s with outbox := s.outbox ++ [job] }

def sentText (sent : List Alert) : Text :=
  let urgent := sent.any (·.isUrgent)
  units (if urgent then "🚨 lolipay coordinator" else "⚠️ lolipay coordinator") ++
    (units ": " ++ summarise sent alertTextBudget)

def clearedText (cleared : List Text) : Text :=
  units "✅ lolipay coordinator: " ++
    (summarise (cleared.map fun key => ⟨key, key, .routine, key⟩) alertTextBudget ++
      units " — cleared")

def publish (env : Surroundings) (sent : List Alert) (cleared : List Text) (now : ℤ)
    (dedupeKey : Option Text) (s : Board) : Board :=
  if !env.alertWebhookUrl then s
  else
    let s := if sent.length > 0 then enqueue ⟨sentText sent, now, dedupeKey⟩ s else s
    if cleared.length > 0 then
      enqueue ⟨clearedText cleared, now, dedupeKey.map (· ++ units ":cleared")⟩ s
    else s

/-- The row for an alert that is sent now; one that did not change is counted on. -/
def recordFor (known : List (Text × AlertState)) (now : ℤ) (a : Alert) : Text × AlertState :=
  let continued := (byKey known a.key).filter (·.fingerprint = a.fingerprint)
  (a.key, {
    fingerprint := a.fingerprint
    lastSentAt := now
    firstSeenAt := (continued.map (·.firstSeenAt)).getD now
    sendCount := (continued.map (·.sendCount)).getD 0 + 1 })

/-- The writes of the transaction; `none` rolls all of them back. -/
def transaction (env : Surroundings) (sent : List Alert) (cleared : List Text)
    (known : List (Text × AlertState)) (now : ℤ) (s : Board) : Option Board :=
  if !env.writes then none
  else do
    let rows ← if sent.length > 0 then
        createMany (deleteMany s.alertState (sent.map (·.key))) (sent.map (recordFor known now))
      else some s.alertState
    let rows := if cleared.length > 0 then deleteMany rows cleared else rows
    some (publish env sent cleared now none { s with alertState := rows })

/-- The service logs a failed transaction and goes on. -/
def commit (env : Surroundings) (sent : List Alert) (cleared : List Text)
    (known : List (Text × AlertState)) (now : ℤ) (s : Board) : Board :=
  if sent.length = 0 ∧ cleared.length = 0 then s
  else if !env.alertWebhookUrl then s
  else (transaction env sent cleared known now s).getD s

def blindDedupeKey (env : Surroundings) (alerts : List Alert) (now : ℤ) : Text :=
  let shapes := (alerts.map fun a => a.key ++ units "=" ++ a.fingerprint).mergeSort (· ≤ ·)
  let bucket := now / reminderIntervalMs
  units "ops_alert:blind:" ++ units (toString bucket) ++ units ":" ++
    (env.sha256Hex ((units "|").intercalate shapes)).take 32

structure Raised where
  sent : List Alert
  cleared : List Text

def raise (env : Surroundings) (scope : List Text) (alerts : List Alert) (incomplete : List Text)
    (now : ℤ) (s : Board) : Raised × Board :=
  let mine := mineOf scope alerts
  if !env.findMany then
    (⟨mine, []⟩,
      if env.writes then publish env mine [] now (some (blindDedupeKey env mine now)) s else s)
  else
    let known := ownedKnown scope s.alertState
    let sent := dueAlerts scope alerts now s.alertState
    let cleared := clearedKeys scope alerts incomplete now s.alertState
    let fit := fitToBudget sent alertTextBudget
    (⟨fit.included, cleared⟩, commit env fit.included cleared known now s)

variable {env : Surroundings} {scope incomplete cleared : List Text} {alerts sent : List Alert}
  {a : Alert} {now : ℤ} {known : Store Text AlertState} {s : Board} {key : Text}

theorem byKey_ownedKnown (h : inScope scope key = true) :
    byKey (ownedKnown scope known) key = known.lookup key := by
  rw [byKey, ownedKnown, AList.lookup]
  generalize known.entries = l
  induction l with
  | nil => rfl
  | cons e l ih =>
    obtain ⟨k, row⟩ := e
    by_cases hk : key = k
    · subst hk
      simp [h]
    · rw [List.dlookup_cons_ne _ _ hk, ← ih]
      cases hin : inScope scope k with
      | true => simp [hin, Ne.symm hk]
      | false => simp [hin]

theorem inScope_of_mem (h : a ∈ mineOf scope alerts) : inScope scope a.key = true :=
  (List.mem_filter.mp h).2

theorem mem_dueAlerts :
    a ∈ dueAlerts scope alerts now known ↔
      a ∈ mineOf scope alerts ∧ isDue now a (known.lookup a.key) = true := by
  rw [dueAlerts, List.mem_filter]
  constructor
  · rintro ⟨hmine, hdue⟩
    rw [byKey_ownedKnown (inScope_of_mem hmine)] at hdue
    exact ⟨hmine, hdue⟩
  · rintro ⟨hmine, hdue⟩
    rw [byKey_ownedKnown (inScope_of_mem hmine)]
    exact ⟨hmine, hdue⟩

theorem mem_of_included {budget : ℕ} (h : a ∈ (fitToBudget alerts budget).included) :
    a ∈ alerts :=
  (byUrgencyFirst_perm alerts).mem_iff.mp ((included_front alerts budget).subset h)

theorem notMem_clearedKeys (h : a ∈ mineOf scope alerts) :
    a.key ∉ clearedKeys scope alerts incomplete now known := by
  intro hmem
  have hmem' := List.mem_of_mem_filter hmem
  obtain ⟨k, hk, hkey⟩ := List.mem_map.mp hmem'
  have hlive := List.of_mem_filter (List.mem_of_mem_filter hk)
  have hin : a.key ∈ (mineOf scope alerts).map (·.key) := List.mem_map_of_mem h
  rw [← hkey] at hin
  simp [hin] at hlive

theorem not_due_of_recorded {row : AlertState} (hfingerprint : row.fingerprint = a.fingerprint)
    (hsent : row.lastSentAt = now) : isDue now a (some row) = false := by
  have hinterval : 0 < intervalOf a.urgency := by
    cases a.urgency <;> decide
  simp only [isDue, hfingerprint, hsent, sub_self]
  simpa using hinterval

section Writes

variable {rows rows' : Store Text AlertState} {seen : List (Text × AlertState)}

theorem map_recordFor_keys (sent : List Alert) :
    (sent.map (recordFor seen now)).map (·.1) = sent.map (·.key) := by
  rw [List.map_map]
  rfl

theorem createMany_sent_isSome (rows : Store Text AlertState) (seen : List (Text × AlertState))
    (now : ℤ) (sent : List Alert) :
    (createMany (deleteMany rows (sent.map (·.key))) (sent.map (recordFor seen now))).isSome ↔
      (sent.map (·.key)).Nodup := by
  rw [createMany_isSome, map_recordFor_keys]
  constructor
  · rintro ⟨hnodup, -⟩
    exact hnodup
  · intro hnodup
    exact ⟨hnodup, fun k hk => lookup_deleteMany_of_mem hk⟩

theorem publish_alertState (env : Surroundings) (sent : List Alert) (cleared : List Text)
    (now : ℤ) (s : Board) : (publish env sent cleared now none s).alertState = s.alertState := by
  simp only [publish, enqueue]
  split_ifs <;> rfl

theorem publish_outbox (cleared : List Text) (now : ℤ) (s : Board)
    (henv : env.alertWebhookUrl = true) (hsent : sent ≠ []) :
    ⟨sentText sent, now, none⟩ ∈
      (publish env sent cleared now none s).outbox.drop s.outbox.length := by
  have hpos : 0 < sent.length := List.length_pos_iff.mpr hsent
  by_cases hcleared : 0 < cleared.length
  · simp [publish, enqueue, henv, hpos, hcleared]
  · simp [publish, enqueue, henv, hpos, hcleared]

/-- A transaction that goes through writes a row for each alert and touches no
other row but those that are cleared. -/
theorem transaction_eq_some (cleared : List Text) (seen : List (Text × AlertState)) (now : ℤ)
    (s : Board) (hwrites : env.writes = true) (hnodup : (sent.map (·.key)).Nodup) :
    ∃ rows, transaction env sent cleared seen now s =
        some (publish env sent cleared now none { s with alertState := rows }) ∧
      (∀ a ∈ sent, a.key ∉ cleared → rows.lookup a.key = some (recordFor seen now a).2) ∧
      ∀ key, key ∉ sent.map (·.key) → key ∉ cleared →
        rows.lookup key = s.alertState.lookup key := by
  obtain ⟨rows, hrows⟩ := Option.isSome_iff_exists.mp
    ((createMany_sent_isSome s.alertState seen now sent).mpr hnodup)
  have hkept {key : Text} (hkey : key ∉ cleared) (rows : Store Text AlertState) :
      (if cleared.length > 0 then deleteMany rows cleared else rows).lookup key =
        rows.lookup key := by
    split_ifs
    · exact lookup_deleteMany_of_notMem hkey
    · rfl
  cases sent with
  | nil =>
    refine ⟨if cleared.length > 0 then deleteMany s.alertState cleared else s.alertState, ?_, ?_, ?_⟩
    · simp [transaction, hwrites]
    · simp
    · intro key _ hkey
      exact hkept hkey _
  | cons b sent =>
    refine ⟨if cleared.length > 0 then deleteMany rows cleared else rows, ?_, ?_, ?_⟩
    · simp only [transaction, hwrites, List.length_cons, Nat.zero_lt_succ, gt_iff_lt, if_true, hrows]
      rfl
    · intro a ha hkey
      rw [hkept hkey]
      exact lookup_createMany_of_mem hrows (List.mem_map_of_mem ha)
    · intro key hsent hkey
      rw [hkept hkey, lookup_createMany_of_notMem hrows (by rwa [map_recordFor_keys]),
        lookup_deleteMany_of_notMem hsent]

theorem transaction_eq_none (hsent : ¬ (sent.map (·.key)).Nodup) :
    transaction env sent cleared seen now s = none := by
  have hpos : 0 < sent.length := by
    rw [List.length_pos_iff]
    rintro rfl
    exact hsent List.nodup_nil
  have hnone : createMany (deleteMany s.alertState (sent.map (·.key)))
      (sent.map (recordFor seen now)) = none := by
    rw [← Option.not_isSome_iff_eq_none, createMany_sent_isSome]
    exact hsent
  by_cases hwrites : env.writes = true
  · simp [transaction, hwrites, hpos, hnone]
  · simp [transaction, hwrites]

end Writes

/-- Everything the database and the configuration give is there. -/
structure Surroundings.Available (env : Surroundings) : Prop where
  webhook : env.alertWebhookUrl = true
  reads : env.findMany = true
  writes : env.writes = true

def chosen (scope : List Text) (alerts : List Alert) (now : ℤ) (known : Store Text AlertState) :
    List Alert :=
  (fitToBudget (dueAlerts scope alerts now known) alertTextBudget).included

/-- The alerts are recorded as sent, each in the one row of its key, and a message
that was queued shows all of them. -/
structure Announced (included : List Alert) (now : ℤ) (s s' : Board) : Prop where
  recorded : ∀ a ∈ included, ∃ row, s'.alertState.lookup a.key = some row ∧
    row.fingerprint = a.fingerprint ∧ row.lastSentAt = now ∧ s'.alertState.keys.count a.key = 1
  shown : included ≠ [] → ∃ job ∈ s'.outbox.drop s.outbox.length,
    (∀ a ∈ included, a.text <:+: job.text) ∨
      ∃ a, included = [a] ∧ alertTextBudget < costOf a.text ∧
        a.text.take alertTextBudget <:+: job.text

theorem due_of_chosen (h : a ∈ chosen scope alerts now known) :
    a ∈ mineOf scope alerts ∧ isDue now a (known.lookup a.key) = true :=
  mem_dueAlerts.mp (mem_of_included h)

theorem raise_eq (henv : env.Available) :
    (raise env scope alerts incomplete now s).2 =
      commit env (chosen scope alerts now s.alertState)
        (clearedKeys scope alerts incomplete now s.alertState)
        (ownedKnown scope s.alertState) now s := by
  simp [raise, henv.reads, chosen]

/-- Two chosen alerts of one key undo the writes of the whole tick. -/
theorem raise_of_shared_key (incomplete : List Text) (henv : env.Available)
    (h : ¬ ((chosen scope alerts now s.alertState).map (·.key)).Nodup) :
    (raise env scope alerts incomplete now s).2 = s := by
  rw [raise_eq henv, commit, transaction_eq_none h]
  split_ifs
  · rfl
  · rfl
  · rfl

theorem sentText_shows (due : List Alert) :
    (∀ a ∈ (fitToBudget due alertTextBudget).included,
        a.text <:+: sentText (fitToBudget due alertTextBudget).included) ∨
      ∃ a, (fitToBudget due alertTextBudget).included = [a] ∧ alertTextBudget < costOf a.text ∧
        a.text.take alertTextBudget <:+: sentText (fitToBudget due alertTextBudget).included := by
  have hsuffix (sent : List Alert) : summarise sent alertTextBudget <:+: sentText sent :=
    ((List.suffix_append _ _).trans (List.suffix_append _ _)).isInfix
  obtain ⟨-, hbody, ⟨-, hshown⟩ | ⟨a, ha, hlong, hshown⟩⟩ := summarise_included due alertTextBudget
  · left
    intro a ha
    refine List.IsInfix.trans ?_ (hsuffix _)
    rw [hbody, hshown]
    exact infix_intercalate (List.mem_map_of_mem ha)
  · refine Or.inr ⟨a, ha, hlong, List.IsInfix.trans ?_ (hsuffix _)⟩
    rw [hbody, hshown]
    exact infix_intercalate (List.mem_singleton_self _)

/-- The chosen alerts have distinct keys, and the tick writes a row for each. -/
theorem raise_of_distinct_keys (incomplete : List Text) (henv : env.Available)
    (h : ((chosen scope alerts now s.alertState).map (·.key)).Nodup) :
    ∃ rows, (raise env scope alerts incomplete now s).2 =
        publish env (chosen scope alerts now s.alertState)
          (clearedKeys scope alerts incomplete now s.alertState) now none
          { s with alertState := rows } ∧
      (∀ a ∈ chosen scope alerts now s.alertState, rows.lookup a.key =
        some (recordFor (ownedKnown scope s.alertState) now a).2) ∧
      ∀ a ∈ mineOf scope alerts, a.key ∉ (chosen scope alerts now s.alertState).map (·.key) →
        rows.lookup a.key = s.alertState.lookup a.key := by
  obtain ⟨rows, htransaction, hchosen, hothers⟩ := transaction_eq_some
    (clearedKeys scope alerts incomplete now s.alertState) (ownedKnown scope s.alertState) now s
    henv.writes h
  have hchosen' : ∀ a ∈ chosen scope alerts now s.alertState, rows.lookup a.key =
      some (recordFor (ownedKnown scope s.alertState) now a).2 := by
    intro a ha
    exact hchosen a ha (notMem_clearedKeys (due_of_chosen ha).1)
  have hothers' : ∀ a ∈ mineOf scope alerts,
      a.key ∉ (chosen scope alerts now s.alertState).map (·.key) →
        rows.lookup a.key = s.alertState.lookup a.key := by
    intro a ha hkey
    exact hothers a.key hkey (notMem_clearedKeys ha)
  rw [raise_eq henv, commit]
  split_ifs with hnothing hwebhook
  · obtain ⟨hchosen, hcleared⟩ := hnothing
    rw [List.length_eq_zero_iff] at hchosen hcleared
    refine ⟨s.alertState, ?_, ?_, fun _ _ _ => rfl⟩
    · simp [hchosen, hcleared, publish]
    · simp [hchosen]
  · simp [henv.webhook] at hwebhook
  · rw [htransaction]
    exact ⟨rows, rfl, hchosen', hothers'⟩

theorem announced_of_distinct_keys (henv : env.Available)
    (h : ((chosen scope alerts now s.alertState).map (·.key)).Nodup) :
    Announced (chosen scope alerts now s.alertState) now s
      (raise env scope alerts incomplete now s).2 := by
  obtain ⟨rows, hraise, hrows, -⟩ := raise_of_distinct_keys incomplete henv h
  rw [hraise]
  constructor
  · intro a ha
    have hrow := hrows a ha
    rw [publish_alertState]
    refine ⟨_, hrow, rfl, rfl, ?_⟩
    apply List.count_eq_one_of_mem rows.keys_nodup
    exact AList.mem_keys.mp (AList.lookup_isSome.mp (Option.isSome_of_eq_some hrow))
  · intro hsome
    have hqueued := publish_outbox (clearedKeys scope alerts incomplete now s.alertState) now
      { s with alertState := rows } henv.webhook hsome
    exact ⟨_, hqueued, sentText_shows (dueAlerts scope alerts now s.alertState)⟩

/-- The alerts of a tick are recorded and shown exactly when those that are due
and fit the message have distinct keys. -/
theorem raise_announces_iff (henv : env.Available) (scope : List Text) (alerts : List Alert)
    (incomplete : List Text) (now : ℤ) (s : Board) :
    Announced (chosen scope alerts now s.alertState) now s
        (raise env scope alerts incomplete now s).2 ↔
      ((chosen scope alerts now s.alertState).map (·.key)).Nodup := by
  constructor
  · intro hannounced
    by_contra hshared
    rw [raise_of_shared_key incomplete henv hshared] at hannounced
    obtain ⟨a, ha⟩ : ∃ a, a ∈ chosen scope alerts now s.alertState := by
      apply List.exists_mem_of_ne_nil
      intro hnil
      rw [hnil] at hshared
      exact hshared List.nodup_nil
    obtain ⟨row, hrow, hfingerprint, hsent, -⟩ := hannounced.recorded a ha
    have hdue := (due_of_chosen ha).2
    rw [hrow, not_due_of_recorded hfingerprint hsent] at hdue
    cases hdue
  · exact announced_of_distinct_keys henv

theorem chosen_keys_nodup_iff
    (hfit : ((dueAlerts scope alerts now known).map (costOf ·.text)).sum ≤ alertTextBudget) :
    ((chosen scope alerts now known).map (·.key)).Nodup ↔
      ((dueAlerts scope alerts now known).map (·.key)).Nodup := by
  rw [chosen, included_of_sum_le hfit]
  exact ((byUrgencyFirst_perm _).map (·.key)).nodup_iff

section Anchor

structure AdvertisedAnchor where
  signingKey : Option Text
  webAuthEndpoint : Option Text
  networkPassphrase : Option Text

structure ServedChallenge where
  source : Text
  webAuthDomain : Text
  homeDomain : Text
  networkPassphrase : Text

/-- What the check asks of the platform: lower case, and the host of an address,
if it is one. -/
structure Platform where
  toLowerCase : Text → Text
  urlHost : Text → Option Text

def given (text : Option Text) : Option Text := text.filter (· ≠ [])

def hostOf (platform : Platform) (endpoint : Option Text) : Option Text :=
  (given endpoint).bind platform.urlHost

def compareAnchorIdentity (platform : Platform) (toml : AdvertisedAnchor)
    (challenge : ServedChallenge) (homeDomain : Text) : List Text :=
  (if platform.toLowerCase challenge.homeDomain ≠ platform.toLowerCase homeDomain then
    [units "the challenge names the home domain " ++ challenge.homeDomain ++
      units " but the toml was fetched from " ++ homeDomain ++
      units ", so every wallet will reject it"]
  else []) ++
  (match given toml.signingKey with
  | none => [units "the toml advertises no SIGNING_KEY"]
  | some key =>
    if key ≠ challenge.source then
      [units "the toml advertises SIGNING_KEY " ++ key ++
        units " but the challenge is sourced by " ++ challenge.source]
    else []) ++
  (match hostOf platform toml.webAuthEndpoint with
  | none => [units "the toml advertises no usable WEB_AUTH_ENDPOINT"]
  | some host =>
    if host ≠ challenge.webAuthDomain then
      [units "the challenge names web_auth_domain " ++ challenge.webAuthDomain ++
        units " but the toml advertises a WEB_AUTH_ENDPOINT on " ++ host]
    else []) ++
  (match given toml.networkPassphrase with
  | none => [units "the toml advertises no NETWORK_PASSPHRASE"]
  | some passphrase =>
    if passphrase ≠ challenge.networkPassphrase then
      [units "the toml and the challenge name different Stellar networks"]
    else [])

def anchorIdentityKey : Text := units "anchor_identity"

/-- The alerts that the monitoring makes of the problems of the anchor. -/
def anchorAlerts (problems : List Text) : List Alert :=
  problems.map fun problem => {
    key := anchorIdentityKey
    fingerprint := problem
    urgency := .urgent
    text := units "the anchor no longer agrees with what it publishes about itself: " ++ problem }

theorem anchorAlerts_nodup_iff (problems : List Text) :
    ((anchorAlerts problems).map (·.key)).Nodup ↔ problems.length ≤ 1 := by
  rw [anchorAlerts, List.map_map]
  have hkeys : problems.map ((·.key) ∘ fun problem => (⟨anchorIdentityKey, problem, .urgent,
      units "the anchor no longer agrees with what it publishes about itself: " ++ problem⟩ :
        Alert)) = List.replicate problems.length anchorIdentityKey :=
    List.map_const'
  exact hkeys ▸ List.nodup_replicate

end Anchor

section Sample

def sampleEnv : Surroundings := ⟨true, true, true, id⟩

theorem sampleEnv_available : sampleEnv.Available := ⟨rfl, rfl, rfl⟩

def sampleScope : List Text := [units "anchor_identity", units "didit_deliveries_refused"]

def refusedAlert : Alert where
  key := units "didit_deliveries_refused"
  fingerprint := units "bad signature"
  urgency := .urgent
  text := units "3 identity verification deliveries were refused since the last check"

def bareToml : AdvertisedAnchor := ⟨none, some (units "https://anchor.example/auth"), none⟩

def sampleChallenge : ServedChallenge :=
  ⟨units "GCHALLENGE", units "anchor.example", units "anchor.example", units "Test Network"⟩

def samplePlatform : Platform := ⟨id, fun _ => some (units "anchor.example")⟩

def bareProblems : List Text :=
  compareAnchorIdentity samplePlatform bareToml sampleChallenge (units "anchor.example")

def emptyBoard : Board := ⟨∅, []⟩

def silencedAlerts : List Alert := refusedAlert :: anchorAlerts bareProblems

theorem length_bareProblems : bareProblems.length = 2 := by decide

/-- Two problems of the anchor at once, and nobody hears of the refused deliveries. -/
theorem anchor_silences_refusals :
    refusedAlert ∈ chosen sampleScope silencedAlerts 0 emptyBoard.alertState ∧
      (raise sampleEnv sampleScope silencedAlerts [] 0 emptyBoard).2 = emptyBoard ∧
      ¬ Announced (chosen sampleScope silencedAlerts 0 emptyBoard.alertState) 0 emptyBoard
        (raise sampleEnv sampleScope silencedAlerts [] 0 emptyBoard).2 := by
  have hdue : dueAlerts sampleScope silencedAlerts 0 emptyBoard.alertState = silencedAlerts := by
    decide +kernel
  have hfit : (silencedAlerts.map (costOf ·.text)).sum ≤ alertTextBudget := by decide +kernel
  have hchosen : chosen sampleScope silencedAlerts 0 emptyBoard.alertState =
      byUrgencyFirst silencedAlerts := by
    rw [chosen, hdue, included_of_sum_le hfit]
  have hmem : refusedAlert ∈ chosen sampleScope silencedAlerts 0 emptyBoard.alertState := by
    rw [hchosen, (byUrgencyFirst_perm _).mem_iff]
    exact List.mem_cons_self
  have hshared : ¬ ((chosen sampleScope silencedAlerts 0 emptyBoard.alertState).map
      (·.key)).Nodup := by
    rw [chosen_keys_nodup_iff (hdue ▸ hfit), hdue]
    intro hnodup
    have hanchor := (anchorAlerts_nodup_iff bareProblems).mp hnodup.of_cons
    rw [length_bareProblems] at hanchor
    omega
  have hsame := raise_of_shared_key [] sampleEnv_available hshared
  refine ⟨hmem, hsame, ?_⟩
  intro hannounced
  obtain ⟨row, hrow, -⟩ := hannounced.recorded refusedAlert hmem
  rw [hsame] at hrow
  cases hrow

theorem sample_announced :
    Announced (chosen sampleScope [refusedAlert] 0 emptyBoard.alertState) 0 emptyBoard
      (raise sampleEnv sampleScope [refusedAlert] [] 0 emptyBoard).2 := by
  apply (raise_announces_iff sampleEnv_available sampleScope [refusedAlert] [] 0 emptyBoard).mpr
  have hdue : dueAlerts sampleScope [refusedAlert] 0 emptyBoard.alertState = [refusedAlert] := by
    decide
  rw [chosen_keys_nodup_iff (by rw [hdue]; decide), hdue]
  decide

end Sample

end Lolipay.Coordinator.Raising

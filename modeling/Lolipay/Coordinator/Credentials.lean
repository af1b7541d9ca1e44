import Lolipay.Ledger.Leases
import Lolipay.Ledger.Runs
import Lolipay.Lists.Association
import Lolipay.Coordinator.Gateway

namespace Lolipay.Coordinator.Credentials

open Lolipay.Ledger.Runs Lolipay.Ledger.Leases
open Lolipay.Lists.Association (mem_of_lookup)
open Lolipay.Async.Process (complete)
open Lolipay.Coordinator.Database (LpStatus)
open Lolipay.Coordinator.Wallets (WalletLinkStatus)
open Lolipay.Coordinator.Gateway (Role TokenClass mayPromote)

def sep24InteractiveAudience : String := "lolipay-sep24-interactive"
def sep24InteractiveTtlSecs : ℕ := 1800
def sep24InteractiveLinkTtlSecs : ℕ := 300
def sep24InteractiveAbsoluteTtlSecs : ℕ := 86400

/-- The strings that were signed are numbered; nobody can make one that verifies
without the secret. -/
abbrev Token := ℕ

abbrev TxnId := String

/-- `issuerHref` is what `requireUri` makes of the issuer. -/
structure Config where
  jwtIssuer : String
  issuerHref : String
  jwtAudience : String
  jwtTtl : ℕ
  adminAddresses : List String
  accountOf : String → String

/-- A payload; what its minter leaves out is `none`. Times are in seconds. -/
structure Claims where
  sub : String
  iss : String
  aud : String
  exp : ℕ
  cls : Option String := none
  role : Option Role := none
  acct : Option String := none
  use : Option String := none
  abs : Option ℕ := none
  deriving DecidableEq, Repr

inductive InteractiveTokenUse where
  | link
  | session
  deriving DecidableEq, Repr

def InteractiveTokenUse.text : InteractiveTokenUse → String
  | .link => "link"
  | .session => "session"

def TokenClass.text : TokenClass → String
  | .session => "session"
  | .sep10 => "sep10"

/-- The tokens that were signed, the rows of the SEP-24 transactions with their
accounts, what `lookupPerson` answers, the tables behind the roles, and the link
readings that have not yet come to their session. Time is in milliseconds. -/
structure State where
  now : ℕ
  issued : List (Token × Claims)
  rows : TxnId → Option String
  people : String → Bool
  links : String → Option WalletLinkStatus
  lps : String → Option LpStatus
  redeeming : List (TxnId × String)

def State.secs (s : State) : ℕ := s.now / 1000

variable (cfg : Config) (s : State)

/-- `jwt.verify` with the secret that all minters share. -/
def verify (iss aud : String) (token : Token) : Option Claims :=
  (s.issued.lookup token).filter fun c => c.iss = iss && c.aud = aud && s.secs < c.exp

def mintInteractiveToken (transactionId account : String) (ttlSecs : ℕ)
    (use : InteractiveTokenUse) (abs : ℕ) : Claims where
  sub := transactionId
  iss := cfg.jwtIssuer
  aud := sep24InteractiveAudience
  exp := s.secs + ttlSecs
  acct := some account
  use := some use.text
  abs := some abs

def defaultAbs : ℕ := s.secs + sep24InteractiveAbsoluteTtlSecs

def readInteractiveToken (token : Token) (transactionId : TxnId) (expected : InteractiveTokenUse) :
    Except String (String × ℕ) :=
  match verify s cfg.jwtIssuer sep24InteractiveAudience token with
  | none => .error "this link is not one this anchor issued, or it has expired"
  | some payload =>
    if payload.sub ≠ transactionId then .error "this link belongs to a different transaction"
    else if payload.use ≠ some expected.text then .error "this credential cannot be used that way"
    else
      match payload.acct with
      | none => .error "this link names no account"
      | some account =>
        if account.length = 0 then .error "this link names no account"
        else if 0 < payload.abs.getD 0 ∧ payload.abs.getD 0 ≤ s.secs then
          .error "this session has been open too long — start again from your wallet"
        else .ok (account, payload.abs.getD 0)

/-- The token of `AuthService.verify`. -/
def mintFor (address : String) (role : Role) : Claims where
  sub := address
  iss := cfg.issuerHref
  aud := cfg.jwtAudience
  exp := s.secs + cfg.jwtTtl
  cls := some (TokenClass.text .session)
  role := some role

/-- The token at the end of the SEP-10 exchange. -/
def mintSep10 (sub : String) : Claims where
  sub := sub
  iss := cfg.issuerHref
  aud := cfg.jwtAudience
  exp := s.secs + cfg.jwtTtl
  cls := some (TokenClass.text .sep10)
  role := some .user

/-- The first cookie that still opens a session: its account, and the claims of
the token that takes its place. -/
def usableSession (id : TxnId) : List Token → Option (String × Claims)
  | [] => none
  | held :: cookies =>
    match readInteractiveToken cfg s held id .session with
    | .ok (account, abs) =>
      some (account, mintInteractiveToken cfg s id account sep24InteractiveTtlSecs .session
        (if 0 < abs then abs else defaultAbs s))
    | .error _ => usableSession id cookies

/-- What a page still asks before it serves an account. -/
def mayServe (id : TxnId) (account : String) : Bool :=
  s.rows id = some account && s.people account

/-- One request or one stretch of a request. New tokens are named by the
environment; `enter` is the end of `sessionFromLink`. -/
inductive Act where
  | tick (now : ℕ)
  | change (people : String → Bool) (links : String → Option WalletLinkStatus)
      (lps : String → Option LpStatus)
  | «open» (id : TxnId) (subject : String) (token : Token)
  | prove (address : String) (role : Role) (token : Token)
  | authenticate (sub : String) (token : Token)
  | redeem (id : TxnId) (link : Token)
  | enter (id : TxnId) (account : String) (token : Token)
  | touch (id : TxnId) (cookies : List Token) (token : Token)

def State.fresh (s : State) (token : Token) : Prop := s.issued.lookup token = none

def State.sign (s : State) (token : Token) (c : Claims) : State :=
  { s with issued := (token, c) :: s.issued }

def admits : Act → Prop
  | .tick now => s.now ≤ now
  | .open id _ token => s.rows id = none ∧ s.fresh token
  | .prove _ _ token | .authenticate _ token | .touch _ _ token => s.fresh token
  | .enter id account token =>
    (id, account) ∈ s.redeeming ∧ mayServe s id account ∧ s.fresh token
  | .change _ _ _ | .redeem _ _ => True

def next : Act → State
  | .tick now => { s with now }
  | .change people links lps => { s with people, links, lps }
  | .open id subject token =>
    { s with rows := fun i => if i = id then some subject else s.rows i }.sign token
      (mintInteractiveToken cfg s id subject sep24InteractiveLinkTtlSecs .link (defaultAbs s))
  | .prove address role token => s.sign token (mintFor cfg s address role)
  | .authenticate sub token => s.sign token (mintSep10 cfg s sub)
  | .redeem id link =>
    match readInteractiveToken cfg s link id .link with
    | .ok (account, _) => { s with redeeming := (id, account) :: s.redeeming }
    | .error _ => s
  | .enter id account token =>
    s.sign token
      (mintInteractiveToken cfg s id account sep24InteractiveTtlSecs .session (defaultAbs s))
  | .touch id cookies token =>
    match usableSession cfg s id cookies with
    | some (_, c) => s.sign token c
    | none => s

def out : Act → Option String
  | .redeem id link => (readInteractiveToken cfg s link id .link).toOption.map (·.1)
  | .touch id cookies _ => (usableSession cfg s id cookies).map (·.1)
  | _ => none

def credentials : Machine State Act (Option String) where
  admits := admits
  next := next cfg
  out := out cfg

structure Starts : Prop where
  issued : s.issued = []
  rows : ∀ id, s.rows id = none
  redeeming : s.redeeming = []

section Sessions

abbrev History := List (Entry State Act (Option String))

variable {cfg s}

def Opened (tr : History) (id : TxnId) (account : String) (t : ℕ) : Prop :=
  ∃ e ∈ tr, ∃ token, e.act = .open id account token ∧ e.pre.secs = t

def Redeemed (tr : History) (id : TxnId) (account : String) (t : ℕ) : Prop :=
  ∃ e ∈ tr, ∃ link, e.act = .redeem id link ∧ e.out = some account ∧ e.pre.secs = t

def Entered (tr : History) (id : TxnId) (account : String) (t : ℕ) : Prop :=
  ∃ e ∈ tr, ∃ token, e.act = .enter id account token ∧ e.pre.secs = t

def Touched (tr : History) (id : TxnId) (account : String) (t : ℕ) : Prop :=
  ∃ e ∈ tr, ∃ cookies token, e.act = .touch id cookies token ∧ e.out = some account ∧
    e.pre.secs = t

def Proved (tr : History) (address : String) (t : ℕ) : Prop :=
  ∃ e ∈ tr, ∃ role token, e.act = .prove address role token ∧ e.pre.secs = t

def Authenticated (tr : History) (sub : String) (t : ℕ) : Prop :=
  ∃ e ∈ tr, ∃ token, e.act = .authenticate sub token ∧ e.pre.secs = t

/-- Where a session comes from: the link was taken within its five minutes, and
the session began behind it. -/
structure Origin (tr : History) (id : TxnId) (account : String) (start : ℕ) : Prop where
  entered : Entered tr id account start
  link : ∃ opened redeemed, Opened tr id account opened ∧ Redeemed tr id account redeemed ∧
    redeemed < opened + sep24InteractiveLinkTtlSecs ∧ redeemed ≤ start

inductive Minted (cfg : Config) (tr : History) : Claims → Prop
  | link {id : TxnId} {account : String} {t : ℕ} (h : Opened tr id account t) (abs : ℕ) :
      Minted cfg tr ⟨id, cfg.jwtIssuer, sep24InteractiveAudience, t + sep24InteractiveLinkTtlSecs,
        none, none, some account, some InteractiveTokenUse.link.text, some abs⟩
  | session {id : TxnId} {account : String} {start t : ℕ} (h : Origin tr id account start)
      (hkept : Renewed sep24InteractiveTtlSecs (Touched tr id account) start t) :
      Minted cfg tr ⟨id, cfg.jwtIssuer, sep24InteractiveAudience, t + sep24InteractiveTtlSecs,
        none, none, some account, some InteractiveTokenUse.session.text,
        some (start + sep24InteractiveAbsoluteTtlSecs)⟩
  | proved {address : String} {t : ℕ} (h : Proved tr address t) (role : Role) :
      Minted cfg tr ⟨address, cfg.issuerHref, cfg.jwtAudience, t + cfg.jwtTtl,
        some (TokenClass.text .session), some role, none, none, none⟩
  | authenticated {sub : String} {t : ℕ} (h : Authenticated tr sub t) :
      Minted cfg tr ⟨sub, cfg.issuerHref, cfg.jwtAudience, t + cfg.jwtTtl,
        some (TokenClass.text .sep10), some .user, none, none, none⟩

structure Sound (cfg : Config) (tr : History) (s : State) : Prop where
  past : ∀ e ∈ tr, e.pre.secs ≤ s.secs
  issued : ∀ k ∈ s.issued, Minted cfg tr k.2
  redeeming : ∀ r ∈ s.redeeming, ∃ opened redeemed, Opened tr r.1 r.2 opened ∧
    Redeemed tr r.1 r.2 redeemed ∧ redeemed < opened + sep24InteractiveLinkTtlSecs ∧
    redeemed ≤ s.secs

section Monotone

variable {tr tr' : History} {id : TxnId} {account : String} {t : ℕ}

theorem Opened.mono (h : Opened tr id account t) (hsub : tr ⊆ tr') : Opened tr' id account t := by
  obtain ⟨e, he, hrest⟩ := h
  exact ⟨e, hsub he, hrest⟩

theorem Redeemed.mono (h : Redeemed tr id account t) (hsub : tr ⊆ tr') :
    Redeemed tr' id account t := by
  obtain ⟨e, he, hrest⟩ := h
  exact ⟨e, hsub he, hrest⟩

theorem Touched.mono (h : Touched tr id account t) (hsub : tr ⊆ tr') :
    Touched tr' id account t := by
  obtain ⟨e, he, hrest⟩ := h
  exact ⟨e, hsub he, hrest⟩

theorem Origin.mono (h : Origin tr id account t) (hsub : tr ⊆ tr') : Origin tr' id account t where
  entered := by
    obtain ⟨e, he, hrest⟩ := h.entered
    exact ⟨e, hsub he, hrest⟩
  link := by
    obtain ⟨opened, redeemed, ho, hr, hlt, hle⟩ := h.link
    exact ⟨opened, redeemed, ho.mono hsub, hr.mono hsub, hlt, hle⟩

theorem Minted.mono {c : Claims} (h : Minted cfg tr c) (hsub : tr ⊆ tr') : Minted cfg tr' c := by
  cases h with
  | link h abs => exact .link (h.mono hsub) abs
  | session h hkept => exact .session (h.mono hsub) (hkept.mono fun _ ht => ht.mono hsub)
  | proved h role =>
    obtain ⟨e, he, hrest⟩ := h
    exact .proved ⟨e, hsub he, hrest⟩ role
  | authenticated h =>
    obtain ⟨e, he, hrest⟩ := h
    exact .authenticated ⟨e, hsub he, hrest⟩

end Monotone

section Reading

variable {tr : History} {token : Token} {id : TxnId} {account : String} {abs : ℕ}

theorem verify_spec {iss aud : String} {c : Claims} (h : verify s iss aud token = some c) :
    s.issued.lookup token = some c ∧ c.iss = iss ∧ c.aud = aud ∧ s.secs < c.exp := by
  obtain ⟨hlookup, hchecks⟩ := Option.filter_eq_some_iff.mp h
  simp only [Bool.and_eq_true, decide_eq_true_eq] at hchecks
  exact ⟨hlookup, hchecks.1.1, hchecks.1.2, hchecks.2⟩

/-- What a token is that the reader takes. -/
theorem read_spec {expected : InteractiveTokenUse}
    (h : readInteractiveToken cfg s token id expected = .ok (account, abs)) :
    ∃ c, s.issued.lookup token = some c ∧ s.secs < c.exp ∧ c.sub = id ∧ c.use = some expected.text ∧
      c.acct = some account ∧ abs = c.abs.getD 0 ∧ (0 < abs → s.secs < abs) := by
  unfold readInteractiveToken at h
  split at h
  next => cases h
  next c hc =>
    obtain ⟨hissued, -, -, hexp⟩ := verify_spec hc
    by_cases hsub : c.sub = id
    · by_cases huse : c.use = some expected.text
      · rw [if_neg (not_not.mpr hsub), if_neg (not_not.mpr huse)] at h
        cases hacct : c.acct with
        | none => simp [hacct] at h
        | some acct =>
          simp only [hacct] at h
          split_ifs at h with hempty habs
          obtain ⟨rfl, rfl⟩ := Prod.mk.inj (Except.ok.inj h)
          refine ⟨c, hissued, hexp, hsub, huse, hacct, rfl, fun hpos => ?_⟩
          by_contra hle
          exact habs ⟨hpos, Nat.le_of_not_lt hle⟩
      · simp [hsub, huse] at h
    · simp [hsub] at h

theorem read_link (hs : Sound cfg tr s)
    (h : readInteractiveToken cfg s token id .link = .ok (account, abs)) :
    ∃ opened, Opened tr id account opened ∧ s.secs < opened + sep24InteractiveLinkTtlSecs := by
  obtain ⟨c, hlookup, hexp, rfl, huse, hacct, -, -⟩ := read_spec h
  have hminted := hs.issued _ (mem_of_lookup hlookup)
  cases hminted with
  | link hopened abs =>
    obtain rfl := Option.some.inj hacct
    exact ⟨_, hopened, hexp⟩
  | session => simp [InteractiveTokenUse.text] at huse
  | proved | authenticated => cases huse

/-- A session that is taken began with its link, was kept alive since, and is
not a day old. -/
theorem read_session (hs : Sound cfg tr s)
    (h : readInteractiveToken cfg s token id .session = .ok (account, abs)) :
    ∃ start, Origin tr id account start ∧
      Live sep24InteractiveTtlSecs (Touched tr id account) start s.secs ∧
      abs = start + sep24InteractiveAbsoluteTtlSecs ∧ s.secs < abs := by
  obtain ⟨c, hlookup, hexp, rfl, huse, hacct, habs, hlt⟩ := read_spec h
  have hminted := hs.issued _ (mem_of_lookup hlookup)
  cases hminted with
  | link => simp [InteractiveTokenUse.text] at huse
  | proved | authenticated => cases huse
  | @session id acct start t horigin hkept =>
    obtain rfl := Option.some.inj hacct
    have hle : t ≤ s.secs := by
      obtain rfl | ⟨e, he, _, _, _, _, rfl⟩ := hkept.touched_or
      · obtain ⟨e, he, _, _, rfl⟩ := horigin.entered
        exact hs.past e he
      · exact hs.past e he
    have heq : abs = start + sep24InteractiveAbsoluteTtlSecs := habs
    refine ⟨start, horigin, ⟨t, hkept, hle, hexp⟩, heq, hlt ?_⟩
    rw [heq, sep24InteractiveAbsoluteTtlSecs]
    omega

theorem usableSession_spec {cookies : List Token} {c : Claims}
    (h : usableSession cfg s id cookies = some (account, c)) :
    ∃ held ∈ cookies, ∃ abs, readInteractiveToken cfg s held id .session = .ok (account, abs) ∧
      c = mintInteractiveToken cfg s id account sep24InteractiveTtlSecs .session
        (if 0 < abs then abs else defaultAbs s) := by
  induction cookies with
  | nil => cases h
  | cons held cookies ih =>
    unfold usableSession at h
    split at h
    next acct abs hread =>
      obtain ⟨rfl, rfl⟩ := Prod.mk.inj (Option.some.inj h)
      exact ⟨held, List.mem_cons_self, abs, hread, rfl⟩
    next =>
      obtain ⟨held', hmem, hrest⟩ := ih h
      exact ⟨held', List.mem_cons_of_mem _ hmem, hrest⟩

end Reading

section Steps

variable {tr : History} {a : Act}

theorem secs_mono {now : ℕ} (h : s.now ≤ now) : s.secs ≤ { s with now }.secs :=
  Nat.div_le_div_right h

theorem Sound.extend (hs : Sound cfg tr s) (a : Act) {t : State} (hsecs : s.secs ≤ t.secs)
    (hissued : ∀ k ∈ t.issued, k ∈ s.issued ∨
      Minted cfg (tr ++ [(credentials cfg).entry s a]) k.2)
    (hredeeming : ∀ r ∈ t.redeeming, r ∈ s.redeeming ∨ ∃ opened, Opened tr r.1 r.2 opened ∧
      Redeemed [(credentials cfg).entry s a] r.1 r.2 s.secs ∧
      s.secs < opened + sep24InteractiveLinkTtlSecs) :
    Sound cfg (tr ++ [(credentials cfg).entry s a]) t where
  past e he := by
    obtain he | he := List.mem_append.mp he
    · exact Nat.le_trans (hs.past e he) hsecs
    · obtain rfl := List.mem_singleton.mp he
      exact hsecs
  issued k hk := by
    obtain hold | hnew := hissued k hk
    · exact (hs.issued k hold).mono (List.subset_append_left _ _)
    · exact hnew
  redeeming r hr := by
    obtain hold | ⟨opened, hopened, hredeemed, hlt⟩ := hredeeming r hr
    · obtain ⟨opened, redeemed, ho, hr, hlt, hle⟩ := hs.redeeming r hold
      exact ⟨opened, redeemed, ho.mono (List.subset_append_left _ _),
        hr.mono (List.subset_append_left _ _), hlt, Nat.le_trans hle hsecs⟩
    · exact ⟨opened, s.secs, hopened.mono (List.subset_append_left _ _),
        hredeemed.mono (List.subset_append_right _ _), hlt, hsecs⟩

theorem Sound.step (hs : Sound cfg tr s) (ha : (credentials cfg).admits s a) :
    Sound cfg (tr ++ [(credentials cfg).entry s a]) ((credentials cfg).next s a) := by
  have hlast : (credentials cfg).entry s a ∈ tr ++ [(credentials cfg).entry s a] :=
    List.mem_append_right _ (List.mem_singleton_self _)
  have hsign (token : Token) (c : Claims) (u : State) (hu : u.issued = s.issued)
      (hc : Minted cfg (tr ++ [(credentials cfg).entry s a]) c) :
      ∀ k ∈ (u.sign token c).issued, k ∈ s.issued ∨
        Minted cfg (tr ++ [(credentials cfg).entry s a]) k.2 := by
    intro k hk
    obtain rfl | hk := List.mem_cons.mp hk
    · exact .inr hc
    · exact .inl (hu ▸ hk)
  cases a with
  | tick now => exact hs.extend _ (secs_mono ha) (fun _ => .inl) fun _ => .inl
  | change => exact hs.extend _ (Nat.le_refl _) (fun _ => .inl) fun _ => .inl
  | «open» id subject token =>
    refine hs.extend _ (Nat.le_refl _) (hsign token _ _ rfl ?_) fun _ => .inl
    exact .link ⟨_, hlast, token, rfl, rfl⟩ _
  | prove address role token =>
    refine hs.extend _ (Nat.le_refl _) (hsign token _ _ rfl ?_) fun _ => .inl
    exact .proved ⟨_, hlast, role, token, rfl, rfl⟩ role
  | authenticate sub token =>
    refine hs.extend _ (Nat.le_refl _) (hsign token _ _ rfl ?_) fun _ => .inl
    exact .authenticated ⟨_, hlast, token, rfl, rfl⟩
  | redeem id link =>
    cases hread : readInteractiveToken cfg s link id .link with
    | error _ =>
      simp only [credentials, next, hread]
      exact hs.extend _ (Nat.le_refl _) (fun _ => .inl) fun _ => .inl
    | ok read =>
      obtain ⟨account, abs⟩ := read
      obtain ⟨opened, hopened, hlt⟩ := read_link hs hread
      have hout : out cfg s (.redeem id link) = some account := by
        simp [out, hread, Except.toOption]
      simp only [credentials, next, hread]
      refine hs.extend _ (Nat.le_refl _) (fun _ => .inl) fun r hr => ?_
      obtain rfl | hr := List.mem_cons.mp hr
      · exact .inr ⟨opened, hopened, ⟨_, List.mem_singleton_self _, link, rfl, hout, rfl⟩, hlt⟩
      · exact .inl hr
  | enter id account token =>
    obtain ⟨opened, redeemed, hopened, hredeemed, hlt, hle⟩ := hs.redeeming _ ha.1
    refine hs.extend _ (Nat.le_refl _) (hsign token _ _ rfl (.session ?_ .start)) fun _ => .inl
    refine ⟨⟨_, hlast, token, rfl, rfl⟩, opened, redeemed, ?_, ?_, hlt, hle⟩
    · exact hopened.mono (List.subset_append_left _ _)
    · exact hredeemed.mono (List.subset_append_left _ _)
  | touch id cookies token =>
    cases huse : usableSession cfg s id cookies with
    | none =>
      simp only [credentials, next, huse]
      exact hs.extend _ (Nat.le_refl _) (fun _ => .inl) fun _ => .inl
    | some usable =>
      obtain ⟨account, c⟩ := usable
      obtain ⟨held, -, abs, hread, rfl⟩ := usableSession_spec huse
      obtain ⟨start, horigin, ⟨t, hkept, hle, hlt⟩, rfl, -⟩ := read_session hs hread
      have hpos : 0 < start + sep24InteractiveAbsoluteTtlSecs := Nat.add_pos_right _ (by decide)
      have hout : out cfg s (.touch id cookies token) = some account := by
        simp [out, huse]
      have hsub := List.subset_append_left tr [(credentials cfg).entry s (.touch id cookies token)]
      have hrenewed := (hkept.mono fun _ ht => ht.mono hsub).touch hle hlt
        ⟨_, hlast, cookies, token, rfl, hout, rfl⟩
      simp only [credentials, next, huse, if_pos hpos]
      refine hs.extend _ (Nat.le_refl _) (hsign token _ _ rfl ?_) fun _ => .inl
      exact .session (horigin.mono hsub) hrenewed

variable {w : State}

theorem run_sound (hs : Starts s) (hr : Run (credentials cfg) s tr w) : Sound cfg tr w := by
  induction hr with
  | nil =>
    refine ⟨nofun, ?_, ?_⟩
    · rw [hs.issued]
      exact nofun
    · rw [hs.redeeming]
      exact nofun
  | snoc _ a ha ih => exact ih.step ha

/-- Whoever gets in with a session cookie holds one that goes back to a link of
that transaction and account, taken within its five minutes; since then no half
hour was without a request, and the session is not a day old. -/
theorem session_from_link (hs : Starts s) (hr : Run (credentials cfg) s tr w) {token : Token}
    {id : TxnId} {account : String} {abs : ℕ}
    (h : readInteractiveToken cfg w token id .session = .ok (account, abs)) :
    ∃ start, Origin tr id account start ∧
      Live sep24InteractiveTtlSecs (Touched tr id account) start w.secs ∧
      w.secs < start + sep24InteractiveAbsoluteTtlSecs := by
  obtain ⟨start, horigin, hlive, rfl, hlt⟩ := read_session (run_sound hs hr) h
  exact ⟨start, horigin, hlive, hlt⟩

/-- From some second on no cookie for the transaction was taken, and no link
came to a session. -/
def Quiet (tr : History) (id : TxnId) (t : ℕ) : Prop :=
  ∀ e ∈ tr, t ≤ e.pre.secs → (∀ account token, e.act ≠ .enter id account token) ∧
    ∀ cookies token, e.act = .touch id cookies token → e.out = none

/-- After half an hour without a request all cookies of a transaction are dead. -/
theorem closed_after_pause (hs : Starts s) (hr : Run (credentials cfg) s tr w) {id : TxnId} {t : ℕ}
    (hquiet : Quiet tr id t) (hlate : t + sep24InteractiveTtlSecs ≤ w.secs)
    (cookies : List Token) : usableSession cfg w id cookies = none := by
  rw [Option.eq_none_iff_forall_not_mem]
  rintro ⟨account, c⟩ huse
  obtain ⟨held, -, abs, hread, -⟩ := usableSession_spec huse
  obtain ⟨start, horigin, hlive, -, -⟩ := read_session (run_sound hs hr) hread
  have hstart : start < t := by
    obtain ⟨e, he, token, hact, rfl⟩ := horigin.entered
    by_contra hge
    exact (hquiet e he (Nat.le_of_not_lt hge)).1 account token hact
  have hlt := hlive.lt_of_pause hstart (by
    rintro u hu - ⟨e, he, cookies, token, hact, hout, rfl⟩
    have hnone := (hquiet e he hu).2 cookies token hact
    rw [hout] at hnone
    cases hnone)
  omega

def sampleConfig : Config :=
  ⟨"https://lolipay.app", "https://lolipay.app/", "lolipay-app", 900, [], id⟩

def sampleState : State :=
  ⟨0, [], fun _ => none, fun _ => true, fun _ => some .active, fun _ => none, []⟩

theorem sampleState_starts : Starts sampleState := ⟨rfl, fun _ => rfl, rfl⟩

def sampleVisit : List Act :=
  [.open "t" "GA" 0, .redeem "t" 0, .enter "t" "GA" 1, .tick 60000, .touch "t" [1] 2]

theorem sampleVisit_admitted : Admitted (credentials sampleConfig) sampleState sampleVisit :=
  ⟨⟨rfl, rfl⟩, trivial, ⟨List.mem_singleton_self _, rfl, rfl⟩, Nat.zero_le _, rfl, trivial⟩

theorem session_from_link_sample :
    ∃ start, Origin (history (credentials sampleConfig) sampleState sampleVisit) "t" "GA" start ∧
      Live 1800 (Touched (history (credentials sampleConfig) sampleState sampleVisit) "t" "GA")
        start 60 ∧ 60 < start + 86400 := by
  have hread : readInteractiveToken sampleConfig
      (final (credentials sampleConfig) sampleState sampleVisit) 2 "t" .session =
        .ok ("GA", 86400) := rfl
  exact session_from_link sampleState_starts (Run.of_actions _ _ sampleVisit_admitted) hread

theorem closed_after_pause_sample :
    usableSession sampleConfig (final (credentials sampleConfig) sampleState
      (sampleVisit ++ [.tick 1900000])) "t" [0, 1, 2] = none := by
  have hadmitted : Admitted (credentials sampleConfig) sampleState
      (sampleVisit ++ [.tick 1900000]) :=
    sampleVisit_admitted.append ⟨(by decide : 60000 ≤ 1900000), trivial⟩
  have hbefore : (history (credentials sampleConfig) sampleState
      (sampleVisit ++ [.tick 1900000])).all (fun e => e.pre.secs < 61) = true := rfl
  refine closed_after_pause (t := 61) sampleState_starts (Run.of_actions _ _ hadmitted)
    (fun e he hlate => ?_) (by decide) _
  have hlt := List.all_eq_true.mp hbefore e he
  exact absurd (of_decide_eq_true hlt) (Nat.not_lt.mpr hlate)

end Steps

end Sessions

section Api

def mayUseInternalApi : List TokenClass := [.session]

def tokenClassOf (cls : String) : Option TokenClass :=
  [TokenClass.session, TokenClass.sep10].find? fun c => TokenClass.text c = cls

def isBase32 (c : Char) : Bool := 'A' ≤ c && c ≤ 'Z' || '2' ≤ c && c ≤ '7'

/-- What may follow the account of a subject: nothing, or a colon and a memo. -/
def isMemoPart : List Char → Bool
  | [] => true
  | ':' :: digits =>
    1 ≤ digits.length && digits.length ≤ 20 && digits.all fun c => '0' ≤ c && c ≤ '9'
  | _ => false

/-- The pattern `SUBJECT`. -/
def isSubject (sub : String) : Bool :=
  match sub.toList with
  | 'G' :: rest =>
    (rest.take 55).length = 55 && (rest.take 55).all isBase32 && isMemoPart (rest.drop 55)
  | 'M' :: rest => rest.length = 68 && rest.all isBase32
  | _ => false

/-- `resolveRole` behind its reads of the two tables. -/
def resolveRole (cfg : Config) (s : State) (address : String) (cls : TokenClass) :
    Except String Role :=
  if s.links (cfg.accountOf address) ≠ some .active then .error "address is not a proven wallet"
  else if cls ∉ mayPromote then .ok .user
  else if address ∈ cfg.adminAddresses then .ok .admin
  else if s.lps address = some .approved then .ok .lp
  else .ok .user

/-- The gateway's `resolveRole` comes to the same when nothing fails or changes
between its two reads. -/
theorem resolveRole_eq_gateway {y : Gateway.Settings} {g : Gateway.State} {cfg : Config} {s : State}
    (sid : Gateway.SocketId) (address : String) (cls : TokenClass)
    (haccount : y.accountOf = cfg.accountOf) (hadmins : y.adminAddresses = cfg.adminAddresses)
    (hlinks : g.links = s.links) (hlps : (g.lps address).map (·.status) = s.lps address) :
    (complete (fun e => Gateway.effect e false) (Gateway.resolveRole y sid address cls) g).2.2 =
      some ((resolveRole cfg s address cls).mapError fun _ => .unauthorized) := by
  simp only [Gateway.resolveRole, complete, Gateway.effect, Bool.false_eq_true, if_false, hlinks,
    haccount, hadmins]
  unfold resolveRole
  split_ifs with hlink hcls hadmin hlp
  · rfl
  · rfl
  · simp only [complete, Gateway.effect, Bool.false_eq_true, if_false, hlps, hlp, if_true]
    rfl
  · simp only [complete, Gateway.effect, Bool.false_eq_true, if_false, hlps, hlp]
    rfl
  · rfl

/-- What the strategy puts into the request, and the gateway into a socket. -/
abbrev User := Gateway.SocketData

def validate (cfg : Config) (s : State) (payload : Claims) : Except String User :=
  if payload.sub = "" then .error "token subject missing"
  else if !isSubject payload.sub then
    .error "token subject is not an address this anchor mints"
  else
    match payload.cls.bind tokenClassOf with
    | none => .error "token class missing or unrecognised"
    | some cls => (resolveRole cfg s payload.sub cls).map fun role => ⟨payload.sub, role, cls⟩

/-- The decorators of a handler: `@Roles`, and the classes of `@AllowTokenClasses`. -/
structure Route where
  roles : List Role
  optedIn : List TokenClass

/-- `RolesGuard`, then `TokenClassInterceptor`. -/
def Route.lets (route : Route) (user : User) : Bool :=
  (route.roles.isEmpty || route.roles.contains user.role) &&
    (mayUseInternalApi ++ route.optedIn).contains user.cls

def handled (cfg : Config) (s : State) (route : Route) (token : Token) : Option User := do
  let payload ← verify s cfg.issuerHref cfg.jwtAudience token
  let user ← (validate cfg s payload).toOption
  if route.lets user then some user else none

variable {cfg : Config} {s w : State} {tr : History} {token : Token} {route : Route} {user : User}

theorem resolveRole_spec {address : String} {cls : TokenClass} {role : Role}
    (h : resolveRole cfg s address cls = .ok role) :
    s.links (cfg.accountOf address) = some .active ∧
      (role ≠ .user → cls = .session) ∧ (role = .admin → address ∈ cfg.adminAddresses) ∧
      (role = .lp → s.lps address = some .approved) := by
  unfold resolveRole at h
  split_ifs at h with hlink hcls hadmin hlp
  all_goals
    obtain rfl := Except.ok.inj h
    refine ⟨not_not.mp hlink, ?_, ?_, ?_⟩ <;> simp_all [mayPromote]

theorem validate_spec {c : Claims} (h : validate cfg s c = .ok user) :
    c.sub = user.address ∧ c.cls.bind tokenClassOf = some user.cls ∧
      resolveRole cfg s user.address user.cls = .ok user.role := by
  unfold validate at h
  split_ifs at h
  cases hcls : c.cls.bind tokenClassOf with
  | none => simp [hcls] at h
  | some cls =>
    simp only [hcls] at h
    cases hrole : resolveRole cfg s c.sub cls with
    | error _ =>
      rw [hrole] at h
      cases h
    | ok role =>
      rw [hrole] at h
      obtain rfl := Except.ok.inj h
      exact ⟨rfl, rfl, hrole⟩

theorem handled_spec (h : handled cfg s route token = some user) :
    ∃ c, s.issued.lookup token = some c ∧ s.secs < c.exp ∧ validate cfg s c = .ok user ∧
      route.lets user = true := by
  unfold handled at h
  cases hverify : verify s cfg.issuerHref cfg.jwtAudience token with
  | none => simp [hverify] at h
  | some c =>
    obtain ⟨hlookup, -, -, hexp⟩ := verify_spec hverify
    cases hvalidate : validate cfg s c with
    | error _ => simp [hverify, hvalidate, Except.toOption] at h
    | ok u =>
      simp only [hverify, hvalidate, Except.toOption, Option.bind_eq_bind, Option.bind_some,
        Option.ite_none_right_eq_some, Option.some.injEq] at h
      obtain ⟨hlets, rfl⟩ := h
      exact ⟨c, hlookup, hexp, hvalidate, hlets⟩

theorem lets_spec (h : route.lets user = true) :
    (route.roles = [] ∨ user.role ∈ route.roles) ∧
      (user.cls = .session ∨ user.cls ∈ route.optedIn) := by
  simpa [Route.lets, mayUseInternalApi, List.isEmpty_iff] using h

/-- Whoever a guarded handler runs for has a wallet that is active now, proved it
no longer ago than a token lasts, and has the role now. A token of the other
class, for which the subject came through SEP-10, only gets in where a handler
says so, and never as more than a user. -/
theorem handled_proved (hs : Starts s) (hr : Run (credentials cfg) s tr w)
    (h : handled cfg w route token = some user) :
    w.links (cfg.accountOf user.address) = some .active ∧
    (route.roles = [] ∨ user.role ∈ route.roles) ∧
    ((user.cls = .session ∧ (∃ t, Proved tr user.address t ∧ w.secs < t + cfg.jwtTtl) ∧
        (user.role = .admin → user.address ∈ cfg.adminAddresses) ∧
        (user.role = .lp → w.lps user.address = some .approved)) ∨
      (user.cls = .sep10 ∧ .sep10 ∈ route.optedIn ∧ user.role = .user ∧
        ∃ t, Authenticated tr user.address t ∧ w.secs < t + cfg.jwtTtl)) := by
  obtain ⟨c, hlookup, hexp, hvalidate, hlets⟩ := handled_spec h
  obtain ⟨hsub, hcls, hrole⟩ := validate_spec hvalidate
  obtain ⟨hlink, hpromoted, hadmin, hlp⟩ := resolveRole_spec hrole
  obtain ⟨hroles, hclass⟩ := lets_spec hlets
  refine ⟨hlink, hroles, ?_⟩
  have hminted := (run_sound hs hr).issued _ (mem_of_lookup hlookup)
  cases hminted with
  | link | session => cases hcls
  | proved hproved =>
    have hsession : user.cls = .session := (Option.some.inj hcls).symm
    rw [← hsub]
    exact .inl ⟨hsession, ⟨_, hproved, hexp⟩, hsub ▸ hadmin, hsub ▸ hlp⟩
  | authenticated hauth =>
    have hsep10 : user.cls = .sep10 := (Option.some.inj hcls).symm
    rw [← hsub]
    rw [hsep10] at hpromoted hclass
    refine .inr ⟨hsep10, hclass.resolve_left nofun, ?_, _, hauth, hexp⟩
    by_contra hrole
    cases hpromoted hrole

/-- A token that opens an interactive page opens it for one transaction and one
use, and no guarded handler runs for it, whatever audience is configured. -/
theorem interactive_apart (hs : Starts s) (hr : Run (credentials cfg) s tr w) {id : TxnId}
    {use : InteractiveTokenUse} {read : String × ℕ}
    (h : readInteractiveToken cfg w token id use = .ok read) :
    (∀ route, handled cfg w route token = none) ∧
    ∀ id' use' read', readInteractiveToken cfg w token id' use' = .ok read' →
      id' = id ∧ use' = use := by
  obtain ⟨c, hlookup, -, hid, huse, hacct, -, -⟩ := read_spec h
  constructor
  · intro route
    rw [Option.eq_none_iff_forall_not_mem]
    intro user huser
    obtain ⟨c', hlookup', -, hvalidate, -⟩ := handled_spec huser
    obtain rfl : c = c' := Option.some.inj (hlookup.symm.trans hlookup')
    obtain ⟨-, hcls, -⟩ := validate_spec hvalidate
    have hminted := (run_sound hs hr).issued _ (mem_of_lookup hlookup)
    cases hminted with
    | link | session => cases hcls
    | proved | authenticated => cases huse
  · intro id' use' read' h'
    obtain ⟨c', hlookup', -, hid', huse', -⟩ := read_spec h'
    obtain rfl : c = c' := Option.some.inj (hlookup.symm.trans hlookup')
    refine ⟨hid'.symm.trans hid, ?_⟩
    have htext := Option.some.inj (huse'.symm.trans huse)
    cases use <;> cases use' <;> simp [InteractiveTokenUse.text] at htext ⊢

def sampleAddress : String := "GAAAAAAAAAAAAAAAAAAAAAAAAAAAAAAAAAAAAAAAAAAAAAAAAAAAAAAA"

theorem handled_proved_sample :
    (final (credentials sampleConfig) sampleState [.authenticate sampleAddress 0]).links
        sampleAddress = some .active ∧
    (([] : List Role) = [] ∨ Role.user ∈ ([] : List Role)) ∧
    ((TokenClass.sep10 = .session ∧
        (∃ t, Proved (history (credentials sampleConfig) sampleState
          [.authenticate sampleAddress 0]) sampleAddress t ∧ 0 < t + 900) ∧
        (Role.user = .admin → sampleAddress ∈ sampleConfig.adminAddresses) ∧
        (Role.user = .lp → sampleState.lps sampleAddress = some .approved)) ∨
      (TokenClass.sep10 = .sep10 ∧ TokenClass.sep10 ∈ [TokenClass.sep10] ∧ Role.user = .user ∧
        ∃ t, Authenticated (history (credentials sampleConfig) sampleState
          [.authenticate sampleAddress 0]) sampleAddress t ∧ 0 < t + 900)) := by
  have hadmitted : Admitted (credentials sampleConfig) sampleState
      [.authenticate sampleAddress 0] := ⟨rfl, trivial⟩
  have hhandled : handled sampleConfig
      (final (credentials sampleConfig) sampleState [.authenticate sampleAddress 0])
      ⟨[], [.sep10]⟩ 0 = some ⟨sampleAddress, .user, .sep10⟩ := rfl
  exact handled_proved sampleState_starts (Run.of_actions _ _ hadmitted) hhandled

theorem interactive_apart_sample :
    handled sampleConfig (final (credentials sampleConfig) sampleState sampleVisit) ⟨[], [.sep10]⟩ 1 =
      none := by
  have hread : readInteractiveToken sampleConfig
      (final (credentials sampleConfig) sampleState sampleVisit) 1 "t" .session =
        .ok ("GA", 86400) := rfl
  exact (interactive_apart sampleState_starts (Run.of_actions _ _ sampleVisit_admitted) hread).1 _

end Api

end Lolipay.Coordinator.Credentials

import Lolipay.Script.Numbers
import Lolipay.Coordinator.Attestation
import Lolipay.Coordinator.Wallets

namespace Lolipay.Coordinator.Statements

open Lolipay.Script.Units Lolipay.Script.Grammar Lolipay.Script.Numerals Lolipay.Script.Numbers
open Lolipay.Lists.Words

structure ReceiptFields where
  id : Text
  tradeId : Text
  fiatAmount : ℤ
  fiatCurrency : Text
  ref : Option Text
  deriving DecidableEq

def providerServerError : String :=
  "Confirming this payment ran into an error. Try again: a payment is never recorded on chain twice, so if the first attempt did go through, the release continues from there."

def statement : Text :=
  units "I confirm I received the full payment for this order, and I authorize lolipay to mark this order as paid on chain."

def tokenUnits : Text := units "ABCDEFGHIJKLMNOPQRSTUVWXYZabcdefghijklmnopqrstuvwxyz0123456789-"

/-- `/^[A-Za-z0-9-]+$/` -/
def printableToken : RegularExpression UInt16 := plus' (oneOf tokenUnits)

def integer (n : ℤ) : Text := sign (n < 0) ++ decimal n.natAbs

def ReceiptFields.reference (order : ReceiptFields) : Text := order.ref.getD (units "-")

/-- The statement that a provider signs to confirm a payment. -/
def providerReceiptMessage (order : ReceiptFields) (at' : Number) : Except String Text :=
  if [order.id, order.tradeId, order.fiatCurrency, order.reference].all printableToken.rmatch then
    .ok (units "lolipay-confirm-receipt:v1 " ++ statement ++ units " order=" ++ order.id ++
      units " trade=" ++ order.tradeId ++ units " amount=" ++ integer order.fiatAmount ++
      units " currency=" ++ order.fiatCurrency ++ units " reference=" ++ order.reference ++
      units " at=" ++ at'.text)
  else .error providerServerError

def authPrefix : Text := units "lolipay-auth"

def linkPrefix : Text := units "lolipay-wallet-link"

/-- What the readers get from elsewhere: the server's keyed hash in hexadecimal, what
`Number` makes of a text when it is an integer, and the check of a signature. -/
structure Keys where
  mac : Text → Text
  integerOf : Text → Option ℤ
  verifySep53 : Text → Text → Text → Bool

variable (x : Keys)

def loginPayload (tag address nonce exp : Text) : Text :=
  tag ++ unit ':' :: (address ++ unit ':' :: (nonce ++ unit ':' :: exp))

def issueChallenge (address nonce : Text) (exp : Number) : Text :=
  let payload := loginPayload authPrefix address nonce exp.text
  payload ++ unit ':' :: x.mac payload

/-- Up to the check of the signature; the answer is the nonce that is spent next. -/
def verify (now : ℤ) (address challenge signature : Text) : Except String Text :=
  let parts := challenge.splitOn (unit ':')
  if parts.length ≠ 5 ∨ parts[0]? ≠ some authPrefix then .error "malformed challenge"
  else
    let addr := parts.getD 1 []
    let nonce := parts.getD 2 []
    let expStr := parts.getD 3 []
    if parts.getD 4 [] ≠ x.mac (loginPayload (parts.getD 0 []) addr nonce expStr) then
      .error "challenge expired or unknown"
    else if (x.integerOf expStr).all fun exp => exp ≤ now then .error "challenge expired or unknown"
    else if addr ≠ address then .error "address mismatch"
    else if x.verifySep53 address challenge signature = false then .error "bad signature"
    else .ok nonce

def issueLinkChallenge (address nonce : Text) (expiresAt : Number) : Text :=
  linkPrefix ++ unit ':' :: (address ++ unit ':' :: (nonce ++ unit ':' :: expiresAt.text))

/-- The first checks of `linkWallet`, up to that of the signature; the answer is the nonce
that is looked up next. -/
def linkWallet (address challenge signature : Text) : Except String Text :=
  let parts := challenge.splitOn (unit ':')
  if parts.length ≠ 4 ∨ parts[0]? ≠ some linkPrefix ∨ parts[1]? ≠ some address then
    .error "link challenge does not belong to this address"
  else if x.verifySep53 address challenge signature = false then
    .error "link proof is not signed by the address"
  else .ok (parts.getD 2 [])

/-- What a wallet signs a text for. -/
inductive Purpose where
  | login
  | walletLink
  | receipt
  deriving DecidableEq, Repr

namespace Purpose

def tag : Purpose → Text
  | .login => authPrefix
  | .walletLink => linkPrefix
  | .receipt => units "lolipay-confirm-receipt"

/-- The reader of the purpose takes the form of the text. -/
def Reads : Purpose → Text → Prop
  | .login, text =>
    (text.splitOn (unit ':')).length = 5 ∧ (text.splitOn (unit ':'))[0]? = some authPrefix
  | .walletLink, text =>
    (text.splitOn (unit ':')).length = 4 ∧ (text.splitOn (unit ':'))[0]? = some linkPrefix
  | .receipt, text => ∃ order at', providerReceiptMessage order at' = .ok text

/-- A signature on the text is let through for the purpose. -/
def Serves (p : Purpose) (address text signature : Text) : Prop :=
  match p with
  | .login => ∃ now nonce, verify x now address text signature = .ok nonce
  | .walletLink => ∃ nonce, linkWallet x address text signature = .ok nonce
  | .receipt => (∃ order at', providerReceiptMessage order at' = .ok text) ∧
      x.verifySep53 address text signature = true

end Purpose

variable {x} {order order' : ReceiptFields} {at' time time' : Number} {p p' : Purpose}
  {token text message address address' challenge signature signature' nonce : Text} {m n now : ℤ}

section Receipt

theorem space_not_mem_token (h : printableToken.rmatch token = true) : unit ' ' ∉ token := by
  intro hmem
  have hall := (matches_plus_oneOf.mp (matches_rmatch.mp h)).2
  have hspace : unit ' ' ∉ tokenUnits := by decide
  exact hspace (hall _ hmem)

theorem decimal_not_minus (k : ℕ) : (decimal k).head? ≠ some (unit '-') := by
  intro h
  cases isDigit_decimal k _ (List.mem_of_mem_head? h)

theorem space_not_mem_integer (n : ℤ) : unit ' ' ∉ integer n := by
  rw [integer, List.mem_append, not_or]
  constructor
  · cases decide (n < 0) <;> decide
  · exact not_mem_of_isDigit rfl (isDigit_decimal _)

theorem integer_injective : Function.Injective integer := by
  intro m n h
  have habs := congrArg unsigned h
  rw [integer, integer, unsigned_sign (decimal_not_minus _), unsigned_sign (decimal_not_minus _)] at habs
  have hvalue := congrArg numeral habs
  rw [numeral_decimal, numeral_decimal] at hvalue
  rw [integer, integer, hvalue] at h
  have hsign := sign_inj (decimal_not_minus _) h
  rw [decide_eq_decide] at hsign
  omega

theorem receipt_words (h : providerReceiptMessage order time = .ok message) :
    (∀ token ∈ [order.id, order.tradeId, order.fiatCurrency, order.reference], unit ' ' ∉ token) ∧
    message = units "lolipay-confirm-receipt:v1 " ++ statement ++ units " order=" ++
      (order.id ++ unit ' ' :: (units "trade=" ++ (order.tradeId ++ unit ' ' :: (units "amount=" ++
      (integer order.fiatAmount ++ unit ' ' :: (units "currency=" ++ (order.fiatCurrency ++
      unit ' ' :: (units "reference=" ++ (order.reference ++ unit ' ' :: (units "at=" ++
      time.text))))))))))  := by
  rw [providerReceiptMessage] at h
  split at h
  next hall =>
    cases h
    constructor
    · intro token htoken
      exact space_not_mem_token (List.all_eq_true.mp hall token htoken)
    · have hlabels : units " trade=" = unit ' ' :: units "trade=" ∧
          units " amount=" = unit ' ' :: units "amount=" ∧
          units " currency=" = unit ' ' :: units "currency=" ∧
          units " reference=" = unit ' ' :: units "reference=" ∧
          units " at=" = unit ' ' :: units "at=" := by
        decide
      simp only [hlabels, List.append_assoc, List.cons_append]
  next => cases h

theorem providerReceiptMessage_inj (h : providerReceiptMessage order time = .ok message)
    (h' : providerReceiptMessage order' time' = .ok message) :
    order.id = order'.id ∧ order.tradeId = order'.tradeId ∧ order.fiatAmount = order'.fiatAmount ∧
      order.fiatCurrency = order'.fiatCurrency ∧ order.reference = order'.reference ∧ time = time' := by
  obtain ⟨htokens, hmessage⟩ := receipt_words h
  obtain ⟨htokens', hmessage'⟩ := receipt_words h'
  simp only [List.forall_mem_cons] at htokens htokens'
  obtain ⟨hid, htrade, hcurrency, href, -⟩ := htokens
  obtain ⟨hid', htrade', hcurrency', href', -⟩ := htokens'
  have hwords := List.append_cancel_left (hmessage.symm.trans hmessage')
  -- One word after the other, from the left.
  obtain ⟨horder, hrest⟩ := word_inj hid hid' hwords
  obtain ⟨htradeEq, hrest⟩ := word_inj htrade htrade' (List.append_cancel_left hrest)
  obtain ⟨hamount, hrest⟩ := word_inj (space_not_mem_integer _) (space_not_mem_integer _)
    (List.append_cancel_left hrest)
  obtain ⟨hcurrencyEq, hrest⟩ := word_inj hcurrency hcurrency' (List.append_cancel_left hrest)
  obtain ⟨hrefEq, hrest⟩ := word_inj href href' (List.append_cancel_left hrest)
  exact ⟨horder, htradeEq, integer_injective hamount, hcurrencyEq, hrefEq,
    Number.text_injective (List.append_cancel_left hrest)⟩

end Receipt

section Purposes

theorem splitOn_tag {tag : Text} (h : unit ':' ∉ tag) (rest : Text) :
    ((tag ++ unit ':' :: rest).splitOn (unit ':'))[0]? = some tag := by
  rw [List.splitOn_append_cons_self_of_not_mem h]
  rfl

theorem colon_not_mem_tag (p : Purpose) : unit ':' ∉ p.tag := by
  cases p <;> decide

theorem Purpose.tag_injective : Function.Injective Purpose.tag := by
  intro p p' h
  cases p <;> cases p' <;> first | rfl | exact absurd h (by decide)

theorem Purpose.Reads.tag_eq (h : p.Reads text) : (text.splitOn (unit ':'))[0]? = some p.tag := by
  cases p with
  | login => exact h.2
  | walletLink => exact h.2
  | receipt =>
    obtain ⟨order, time, hmessage⟩ := h
    obtain ⟨-, rfl⟩ := receipt_words hmessage
    have hversion : units "lolipay-confirm-receipt:v1 " =
        Purpose.receipt.tag ++ unit ':' :: units "v1 " := by
      decide
    rw [hversion]
    simp only [List.append_assoc, List.cons_append]
    exact splitOn_tag (colon_not_mem_tag .receipt) _

theorem Purpose.Reads.unique (h : p.Reads text) (h' : p'.Reads text) : p = p' :=
  Purpose.tag_injective (Option.some.inj (h.tag_eq.symm.trans h'.tag_eq))

theorem Purpose.Serves.reads (h : p.Serves x address text signature) : p.Reads text := by
  cases p with
  | login =>
    obtain ⟨now, nonce, hverify⟩ := h
    simp only [verify] at hverify
    split at hverify
    next => cases hverify
    next hform => simpa [not_or, Purpose.Reads] using hform
  | walletLink =>
    obtain ⟨nonce, hlink⟩ := h
    simp only [linkWallet] at hlink
    split at hlink
    next => cases hlink
    next hform =>
      rw [not_or, not_or, not_not, not_not] at hform
      exact ⟨hform.1, hform.2.1⟩
  | receipt => exact h.1

theorem issueChallenge_eq (address nonce : Text) (exp : Number) :
    issueChallenge x address nonce exp = authPrefix ++ unit ':' :: (address ++ unit ':' ::
      (nonce ++ unit ':' :: (exp.text ++ unit ':' ::
        x.mac (loginPayload authPrefix address nonce exp.text)))) := by
  rw [issueChallenge]
  conv_lhs => rw [loginPayload]
  simp only [List.append_assoc, List.cons_append]
  rfl

theorem colon_not_mem_authPrefix : unit ':' ∉ authPrefix := colon_not_mem_tag .login

theorem colon_not_mem_linkPrefix : unit ':' ∉ linkPrefix := colon_not_mem_tag .walletLink

theorem issueChallenge_reads {exp : Number} (h : p.Reads (issueChallenge x address nonce exp)) :
    p = .login := by
  apply Purpose.tag_injective
  have htag := h.tag_eq
  rw [issueChallenge_eq, splitOn_tag colon_not_mem_authPrefix] at htag
  exact (Option.some.inj htag).symm

theorem issueLinkChallenge_reads {exp : Number} (h : p.Reads (issueLinkChallenge address nonce exp)) :
    p = .walletLink := by
  apply Purpose.tag_injective
  have htag := h.tag_eq
  rw [issueLinkChallenge, splitOn_tag colon_not_mem_linkPrefix] at htag
  exact (Option.some.inj htag).symm

end Purposes

section Issued

theorem colon_not_mem_text (time : Number) : unit ':' ∉ time.text := by
  intro h
  obtain hdigit | hmark := time.text_units _ h
  · cases hdigit
  · revert hmark
    decide

/-- The login reader takes what was issued to the address, until it expires. -/
theorem verify_issueChallenge {exp : Number} {time : ℤ} (haddress : unit ':' ∉ address)
    (hnonce : unit ':' ∉ nonce) (hmac : ∀ payload, unit ':' ∉ x.mac payload)
    (hexp : x.integerOf exp.text = some time) (hnow : now < time)
    (hsigned : x.verifySep53 address (issueChallenge x address nonce exp) signature = true) :
    verify x now address (issueChallenge x address nonce exp) signature = .ok nonce := by
  have hparts : (issueChallenge x address nonce exp).splitOn (unit ':') =
      [authPrefix, address, nonce, exp.text, x.mac (loginPayload authPrefix address nonce exp.text)] := by
    rw [issueChallenge_eq, List.splitOn_append_cons_self_of_not_mem colon_not_mem_authPrefix,
      List.splitOn_append_cons_self_of_not_mem haddress, List.splitOn_append_cons_self_of_not_mem hnonce,
      List.splitOn_append_cons_self_of_not_mem (colon_not_mem_text exp),
      List.splitOn_eq_singleton (hmac _)]
  simp only [verify, hparts]
  simp [hexp, hsigned, not_le.mpr hnow]

theorem linkWallet_issueLinkChallenge {exp : Number} (haddress : unit ':' ∉ address)
    (hnonce : unit ':' ∉ nonce)
    (hsigned : x.verifySep53 address (issueLinkChallenge address nonce exp) signature = true) :
    linkWallet x address (issueLinkChallenge address nonce exp) signature = .ok nonce := by
  have hparts : (issueLinkChallenge address nonce exp).splitOn (unit ':') =
      [linkPrefix, address, nonce, exp.text] := by
    rw [issueLinkChallenge, List.splitOn_append_cons_self_of_not_mem colon_not_mem_linkPrefix,
      List.splitOn_append_cons_self_of_not_mem haddress, List.splitOn_append_cons_self_of_not_mem hnonce,
      List.splitOn_eq_singleton (colon_not_mem_text exp)]
  simp only [linkWallet, hparts]
  simp [hsigned]

end Issued

section Strings

open Lolipay.Coordinator.Orders (OrderId Placement)

variable {c : Attestation.Config} {id : OrderId} {placed : Placement} {clock : ℤ} {said : String}

/-- An order of the desk as a receipt reads it. -/
def receiptFields (c : Attestation.Config) (id : OrderId) (placed : Placement) : ReceiptFields where
  id := units (c.orderText id)
  tradeId := units (c.tradeText placed.tradeId)
  fiatAmount := placed.fiatAmount
  fiatCurrency := units placed.fiatCurrency
  ref := placed.ref.map fun ref => units (c.refText ref)

/-- The class of a token's characters, by their numbers. -/
def Printable (k : ℕ) : Prop := 65 ≤ k ∧ k ≤ 90 ∨ 97 ≤ k ∧ k ≤ 122 ∨ 48 ≤ k ∧ k ≤ 57 ∨ k = 45

theorem isAlphanum_iff {ch : Char} : (ch.isAlphanum || ch = '-') = true ↔ Printable ch.toNat := by
  have hupper : ch.isUpper = true ↔ 65 ≤ ch.toNat ∧ ch.toNat ≤ 90 := decide_eq_true_iff
  have hlower : ch.isLower = true ↔ 97 ≤ ch.toNat ∧ ch.toNat ≤ 122 :=
    Bool.and_eq_true_iff.trans (and_congr decide_eq_true_iff decide_eq_true_iff)
  have hdash : ch = '-' ↔ ch.toNat = 45 := Char.toNat_inj.symm
  have hparts : ch.isAlphanum = (ch.isUpper || ch.isLower || ch.isDigit) := rfl
  rw [hparts, Bool.or_eq_true, Bool.or_eq_true, Bool.or_eq_true, hupper, hlower, Char.isDigit_iff_toNat,
    decide_eq_true_eq, hdash, Printable, or_assoc, or_assoc]
  exact Iff.rfl

theorem tokenUnits_toNat : tokenUnits.map UInt16.toNat =
    List.range' 65 26 ++ (List.range' 97 26 ++ (List.range' 48 10 ++ [45])) := by
  decide +kernel

theorem mem_tokenUnits {u : UInt16} : u ∈ tokenUnits ↔ Printable u.toNat := by
  have hinj : Function.Injective UInt16.toNat := fun _ _ h => UInt16.toNat_inj.mp h
  rw [← List.mem_map_of_injective hinj, tokenUnits_toNat]
  simp only [List.mem_append, List.mem_range'_1, List.mem_singleton, Printable]
  omega

theorem unitsOf_mem_tokenUnits (ch : Char) :
    (∀ u ∈ unitsOf ch, u ∈ tokenUnits) ↔ (ch.isAlphanum || ch = '-') = true := by
  have hvalid := valid_toNat ch
  simp only [isAlphanum_iff, mem_tokenUnits, unitsOf]
  split_ifs with hsmall
  · rw [List.forall_mem_singleton, toNat_toUInt16, Nat.mod_eq_of_lt hsmall]
  · simp only [List.forall_mem_cons, toNat_toUInt16, Printable]
    omega

theorem rmatch_units (token : String) :
    printableToken.rmatch (units token) = Attestation.printableToken token := by
  rw [Bool.eq_iff_iff, matches_rmatch, printableToken, matches_plus_oneOf]
  simp only [Attestation.printableToken, Bool.and_eq_true, List.all_eq_true]
  apply and_congr
  · rw [decide_eq_true_eq, not_iff_not]
    exact (Function.Injective.eq_iff' units_injective units_empty)
  · simp only [units, List.mem_flatMap]
    constructor
    · intro h ch hch
      exact (unitsOf_mem_tokenUnits ch).mp fun u hu => h u ⟨ch, hch, hu⟩
    · rintro h u ⟨ch, hch, hu⟩
      exact (unitsOf_mem_tokenUnits ch).mpr (h ch hch) u hu

theorem units_toString (n : ℤ) : units (toString n) = integer n := by
  rw [Int.toString_eq_repr, Int.repr_eq_if, integer, decimal, Nat.toString_eq_repr]
  by_cases hn : n < 0
  · have hsign : units "-" = [unit '-'] := by decide
    have habs : n.natAbs = (-n).toNat := by omega
    rw [if_neg (by omega), units_append, hsign, sign, if_pos (decide_eq_true hn), habs]
  · have habs : n.natAbs = n.toNat := by omega
    rw [if_pos (by omega), sign, if_neg (by simpa using hn), habs, List.nil_append]

theorem providerReceiptMessage_receiptFields (htime : time.text = integer clock) :
    providerReceiptMessage (receiptFields c id placed) time =
      match Attestation.providerReceiptMessage c id placed clock with
      | some message => .ok (units message)
      | none => .error providerServerError := by
  have href : (receiptFields c id placed).reference = units ((placed.ref.map c.refText).getD "-") := by
    cases hnone : placed.ref <;> simp [receiptFields, ReceiptFields.reference, hnone]
  have htokens : [(receiptFields c id placed).id, (receiptFields c id placed).tradeId,
        (receiptFields c id placed).fiatCurrency, (receiptFields c id placed).reference].all
          printableToken.rmatch =
      [c.orderText id, c.tradeText placed.tradeId, placed.fiatCurrency,
        (placed.ref.map c.refText).getD "-"].all Attestation.printableToken := by
    rw [href]
    simp only [List.all_cons, List.all_nil, receiptFields, rmatch_units]
  have hstatement : statement = units Attestation.receiptStatement := rfl
  rw [providerReceiptMessage, Attestation.providerReceiptMessage, htokens]
  split
  next =>
    rw [href, htime, hstatement, ← units_toString, ← units_toString]
    simp only [units_append, receiptFields]
  next => rfl

theorem reads_receipt (hclock : clock.natAbs < 10 ^ 21)
    (h : Attestation.providerReceiptMessage c id placed clock = some said) :
    Purpose.receipt.Reads (units said) := by
  obtain ⟨time, htime⟩ := Number.exists_text hclock
  refine ⟨receiptFields c id placed, time, ?_⟩
  rw [providerReceiptMessage_receiptFields htime, h]

theorem splitOn_colon (said : String) :
    (units said).splitOn (unit ':') = (Wallets.splitAtColons said).map units := by
  rw [splitOn_units (by decide), Wallets.splitAtColons, List.map_map]
  rfl

theorem linkWallet_units (named challenged : String) :
    linkWallet x (units named) (units challenged) signature =
      match Wallets.linkNonce named challenged with
      | none => .error "link challenge does not belong to this address"
      | some nonce =>
        if x.verifySep53 (units named) (units challenged) signature = false then
          .error "link proof is not signed by the address"
        else .ok (units nonce) := by
  have htag : linkPrefix = units Wallets.linkPrefix := rfl
  simp only [linkWallet, Wallets.linkNonce, splitOn_colon, htag, List.length_map, List.getElem?_map,
    List.getD_eq_getElem?_getD]
  match Wallets.splitAtColons challenged with
  | [] | [_] | [_, _] | [_, _, _] | _ :: _ :: _ :: _ :: _ :: _ => simp
  | [tag, address, nonce, rest] =>
    by_cases htags : tag = Wallets.linkPrefix ∧ address = named
    · simp [htags]
    · simp only [List.getElem?_cons_zero, List.getElem?_cons_succ, Option.map_some, ne_eq,
        Option.some.injEq, units_injective.eq_iff]
      rw [if_neg htags, if_pos (Or.inr (not_and_or.mp htags))]

/-- No receipt is a challenge for a link. -/
theorem linkNonce_receipt (hclock : clock.natAbs < 10 ^ 21)
    (h : Attestation.providerReceiptMessage c id placed clock = some said) (named : String) :
    Wallets.linkNonce named said = none := by
  cases hnonce : Wallets.linkNonce named said with
  | none => rfl
  | some nonce =>
    let trusting : Keys := ⟨fun _ => [], fun _ => none, fun _ _ _ => true⟩
    have hlink : linkWallet trusting (units named) (units said) [] = .ok (units nonce) := by
      rw [linkWallet_units, hnonce]
      rfl
    have hserves : Purpose.walletLink.Serves trusting (units named) (units said) [] := ⟨_, hlink⟩
    cases hserves.reads.unique (reads_receipt hclock h)

end Strings

/-- A signed statement says one thing, for one purpose. -/
theorem statements_unambiguous :
    (∀ order order' time time' message, providerReceiptMessage order time = .ok message →
      providerReceiptMessage order' time' = .ok message →
      order.id = order'.id ∧ order.tradeId = order'.tradeId ∧ order.fiatAmount = order'.fiatAmount ∧
        order.fiatCurrency = order'.fiatCurrency ∧
        order.ref.getD (units "-") = order'.ref.getD (units "-") ∧ time = time') ∧
    (∀ text p p', Purpose.Reads p text → Purpose.Reads p' text → p = p') ∧
    (∀ x x' address address' text signature signature' p p', Purpose.Serves x p address text signature →
      Purpose.Serves x' p' address' text signature' → p = p') ∧
    (∀ x address nonce exp p, Purpose.Reads p (issueChallenge x address nonce exp) → p = .login) ∧
    ∀ address nonce expiresAt p, Purpose.Reads p (issueLinkChallenge address nonce expiresAt) →
      p = .walletLink := by
  refine ⟨?_, ?_, ?_, ?_, ?_⟩
  · intro order order' time time' message h h'
    exact providerReceiptMessage_inj h h'
  · intro text p p' h h'
    exact h.unique h'
  · intro x x' address address' text signature signature' p p' h h'
    exact h.reads.unique h'.reads
  · intro x address nonce exp p h
    exact issueChallenge_reads h
  · intro address nonce expiresAt p h
    exact issueLinkChallenge_reads h

end Lolipay.Coordinator.Statements

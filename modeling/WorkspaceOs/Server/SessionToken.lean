import WorkspaceOs.Js.Base64
import WorkspaceOs.Js.JsonText
import WorkspaceOs.Server.Http

/-!
# Session tokens

A token is a base64url payload, a dot, and the HMAC of the payload. The HMAC is a parameter, and
what is assumed of it is stated about the pieces of a token that is presented: none of them is the
HMAC of another one, unless the service signed that.
-/

namespace WorkspaceOs.Auth

open Js JsonText

/-- `SessionTokenService`. -/
structure SessionTokenService where
  secret : JsString
  secret_visible : ¬ secret.IsBlank

/-- The constructor of `SessionTokenService`. -/
def SessionTokenService.create (secret : JsString) : Except Thrown SessionTokenService :=
  if h : secret.IsBlank then
    .error (.foreign "SessionTokenService requires a non-empty secret")
  else .ok ⟨secret, h⟩

def base64url (value : JsString) : JsString := toBase64url (utf8 value)

/-- `timingSafeEqual` throws on buffers of different lengths, which it never gets. -/
def safeEqual (a b : JsString) : Bool :=
  (utf8 a).length == (utf8 b).length && utf8 a == utf8 b

/-- `JSON.stringify({ sub, exp })`. -/
def claimsText (sub : JsString) (exp : TimeValue) : JsString :=
  "\x7b\"sub\":" ++ (quote sub ++ (",\"exp\":" ++ (timeText exp ++ "\x7d")))

def payloadOf (memberId : JsString) (expiresAt : TimeValue) : JsString :=
  base64url (claimsText memberId expiresAt)

namespace SessionTokenService

variable (hmac : Bytes → Bytes → Bytes) (service : SessionTokenService)

def sign (payload : JsString) : JsString :=
  toBase64url (hmac (utf8 service.secret) (utf8 payload))

def issue (memberId : JsString) (expiresAt : TimeValue) : JsString :=
  payloadOf memberId expiresAt ++ 0x2E :: service.sign hmac (payloadOf memberId expiresAt)

/-- What follows the comparison of the signatures. The claims are looked up in what was parsed,
which throws where that is `null`; strings have a method `sub`, but that is not a string. -/
def readClaims (payload : JsString) (now : TimeValue) : Except Thrown (Option JsString) :=
  match parseJson (fromUtf8 (fromBase64url payload)) with
  | none => .ok none
  | some .null => .error .typeError
  | some decoded =>
    match decoded.prop? "sub", decoded.prop? "exp" with
    | some (.str sub), some (.num exp) =>
      if exp ≤ now.toNumber then .ok none else .ok (some sub)
    | _, _ => .ok none

/-- `indexOf` is the length here where the source has -1. -/
def verify (token : JsString) (now : TimeValue) : Except Thrown (Option JsString) :=
  let dot := token.idxOf 0x2E
  if dot = token.length ∨ dot = 0 then .ok none
  else
    let payload := token.take dot
    let signature := token.drop (dot + 1)
    if safeEqual signature (service.sign hmac payload) then readClaims payload now
    else .ok none

/-- The service as the routes use it. Where `verify` throws, nobody is authenticated either. -/
def sessions : WorkspaceOs.SessionTokenService where
  issue := service.issue hmac
  verify token now := (service.verify hmac token now).toOption.join

end SessionTokenService

/-! ### What an issued token says -/

variable {hmac : Bytes → Bytes → Bytes} {service : SessionTokenService}
variable {memberId payload presented : JsString} {expiresAt now : TimeValue}

lemma safeEqual_iff {a b : JsString} : safeEqual a b = true ↔ utf8 a = utf8 b := by
  rw [safeEqual]
  rw [Bool.and_eq_true, beq_iff_eq, beq_iff_eq]
  exact ⟨And.right, fun h => ⟨congrArg _ h, h⟩⟩

/-- The tokens of a claims text. -/
lemma tokens?_claimsText {exp : TimeValue} : tokens? (claimsText memberId exp) =
    some [.leftBrace, .string "sub", .colon, .string memberId, .comma, .string "exp", .colon,
      .scalar (ofTime exp), .rightBrace] := by
  have hopen : ("\x7b\"sub\":" : JsString).foldlM lex ([], .start) =
      some ([.leftBrace, .string "sub", .colon], .start) := rfl
  have hnext (ts : List Token) : (",\"exp\":" : JsString).foldlM lex (ts, .start) =
      some (ts ++ [.comma] ++ [.string "exp"] ++ [.colon], .start) := rfl
  have hclose : ("\x7d" : JsString) = [0x7D] := rfl
  rw [tokens?, claimsText, foldlM_lex_append hopen, foldlM_lex_quote, foldlM_lex_append (hnext _),
    hclose, foldlM_lex_timeText rfl]
  rfl

lemma parseJson_claimsText {exp : TimeValue} : parseJson (claimsText memberId exp) =
    some (.obj [("sub", .str memberId), ("exp", ofTime exp)]) := by
  rw [parseJson, tokens?_claimsText]
  rfl

lemma wellFormed_claimsText {exp : TimeValue} : WellFormed (claimsText memberId exp) := by
  have hopen : WellFormed ("\x7b\"sub\":" : JsString) := .of_all rfl
  have hnext : WellFormed (",\"exp\":" : JsString) := .of_all rfl
  have hclose : WellFormed ("\x7d" : JsString) := .of_all rfl
  exact hopen.append (wellFormed_quote.append (hnext.append (wellFormed_timeText.append hclose)))

/-- A payload decodes to the claims text it was made of. -/
lemma decode_payloadOf : fromUtf8 (fromBase64url (payloadOf memberId expiresAt)) =
    claimsText memberId expiresAt := by
  rw [payloadOf, base64url, fromBase64url_toBase64url, fromUtf8_utf8 wellFormed_claimsText]

lemma payloadOf_ne_nil : payloadOf memberId expiresAt ≠ [] := by
  intro h
  have hdecode : fromUtf8 (fromBase64url (payloadOf memberId expiresAt)) = _ := decode_payloadOf
  rw [h] at hdecode
  cases hdecode

namespace SessionTokenService

/-- What a payload that the service made says, at a time. -/
lemma readClaims_payloadOf : readClaims (payloadOf memberId expiresAt) now =
    .ok (match expiresAt with
      | some t => if ofInt t ≤ now.toNumber then none else some memberId
      | none => none) := by
  rw [readClaims, decode_payloadOf, parseJson_claimsText]
  cases expiresAt with
  | none => rfl
  | some t =>
    show (if _ then _ else _) = Except.ok (if _ then _ else _)
    split_ifs <;> rfl

/-- An issued token passes the comparison of signatures. -/
lemma verify_issue : service.verify hmac (service.issue hmac memberId expiresAt) now =
    readClaims (payloadOf memberId expiresAt) now := by
  have hdot : (0x2E : UInt16) ∉ payloadOf memberId expiresAt :=
    fun hmem => (mem_toBase64url hmem).2.1 rfl
  have hidx : (service.issue hmac memberId expiresAt).idxOf 0x2E =
      (payloadOf memberId expiresAt).length := by
    rw [issue, List.idxOf_append, if_neg hdot, List.idxOf_cons_self, Nat.zero_add]
  have hlength : (service.issue hmac memberId expiresAt).length =
      (payloadOf memberId expiresAt).length +
        ((service.sign hmac (payloadOf memberId expiresAt)).length + 1) := by
    rw [issue, List.length_append, List.length_cons]
  have hpos : 0 < (payloadOf memberId expiresAt).length :=
    List.length_pos_of_ne_nil payloadOf_ne_nil
  have htake : (service.issue hmac memberId expiresAt).take
      (payloadOf memberId expiresAt).length = payloadOf memberId expiresAt := by
    rw [issue, List.take_left]
  have hdrop : (service.issue hmac memberId expiresAt).drop
      ((payloadOf memberId expiresAt).length + 1) =
        service.sign hmac (payloadOf memberId expiresAt) := by
    rw [issue, List.drop_length_add_append]
    rfl
  rw [verify]
  dsimp only
  rw [hidx, if_neg (by omega), htake, hdrop, if_pos (safeEqual_iff.mpr rfl)]

/-- A token that passes the comparison of signatures is a payload, a dot, and its HMAC. -/
lemma verify_of_ne_none (h : service.verify hmac presented now ≠ .ok none) :
    ∃ payload, presented = payload ++ 0x2E :: service.sign hmac payload := by
  rw [verify] at h
  dsimp only at h
  split_ifs at h with hdot hequal
  · exact absurd rfl h
  · rw [not_or] at hdot
    have hlt : presented.idxOf 0x2E < presented.length := by
      have := List.idxOf_le_length (a := (0x2E : UInt16)) (l := presented)
      omega
    have hsplit : presented = presented.take (presented.idxOf 0x2E) ++
        0x2E :: presented.drop (presented.idxOf 0x2E + 1) := by
      conv_lhs => rw [← List.take_append_drop (presented.idxOf 0x2E) presented]
      rw [List.drop_eq_getElem_cons hlt, List.getElem_idxOf hlt]
    have hsignature := eq_of_utf8_eq isAscii_toBase64url (safeEqual_iff.mp hequal)
    refine ⟨presented.take (presented.idxOf 0x2E), ?_⟩
    rw [sign, ← hsignature]
    exact hsplit
  · exact absurd rfl h

end SessionTokenService

/-! ### Only issued tokens are accepted -/

/-- A call of `issue`. -/
structure IssueCall where
  memberId : JsString
  expiresAt : Date

def IssueCall.token (hmac : Bytes → Bytes → Bytes) (service : SessionTokenService)
    (call : IssueCall) : JsString :=
  service.issue hmac call.memberId call.expiresAt.getTime

/-- The HMAC of a piece of the presented string is another piece of it only where the service has
signed that piece before. What it signs are the bytes of a payload. -/
def Unforgeable (hmac : Bytes → Bytes → Bytes) (service : SessionTokenService)
    (calls : List IssueCall) (presented : JsString) : Prop :=
  ∀ payload, payload <:+: presented → service.sign hmac payload <:+: presented →
    ∃ call ∈ calls, utf8 payload = utf8 (payloadOf call.memberId call.expiresAt.getTime)

namespace SessionTokenService

variable {calls : List IssueCall}

/-- Whatever else is presented is answered with `null`. -/
lemma verify_eq_none_or (hunforgeable : Unforgeable hmac service calls presented)
    (now : TimeValue) : service.verify hmac presented now = .ok none ∨
      ∃ call ∈ calls, call.token hmac service = presented := by
  by_cases hnone : service.verify hmac presented now = .ok none
  · exact .inl hnone
  · obtain ⟨payload, rfl⟩ := verify_of_ne_none hnone
    obtain ⟨call, hcall, hbytes⟩ := hunforgeable payload (List.prefix_append _ _).isInfix
      ((List.suffix_cons _ _).trans (List.suffix_append _ _)).isInfix
    obtain rfl : payload = payloadOf call.memberId call.expiresAt.getTime :=
      eq_of_utf8_eq isAscii_toBase64url hbytes
    exact .inr ⟨call, hcall, rfl⟩

/-- An issued token is accepted or answered with `null`. -/
lemma exists_verify_token (call : IssueCall) (now : TimeValue) :
    ∃ accepted, service.verify hmac (call.token hmac service) now = .ok accepted :=
  ⟨_, verify_issue.trans readClaims_payloadOf⟩

/-- An accepted token is accepted for the member of its call, and its expiry is not reached. -/
lemma verify_token_some {call : IssueCall}
    (h : service.verify hmac (call.token hmac service) now = .ok (some memberId)) :
    memberId = call.memberId ∧ ∃ expiry, call.expiresAt.getTime = some expiry ∧
      ¬ ofInt expiry ≤ now.toNumber := by
  have hread := (verify_issue.trans readClaims_payloadOf).symm.trans h
  cases hexpiry : call.expiresAt.getTime with
  | none =>
    rw [hexpiry] at hread
    cases hread
  | some expiry =>
    rw [hexpiry] at hread
    dsimp only at hread
    split_ifs at hread with hexpired
    · cases hread
    · exact ⟨(Option.some.inj (Except.ok.inj hread)).symm, expiry, rfl, hexpired⟩

/-- Who is authenticated with a token had it issued. -/
lemma exists_call_of_sessions (hunforgeable : Unforgeable hmac service calls presented)
    (h : (service.sessions hmac).verify presented now = some memberId) :
    ∃ call ∈ calls, call.token hmac service = presented ∧ call.memberId = memberId := by
  have hsome : (service.verify hmac presented now).toOption.join = some memberId := h
  rcases verify_eq_none_or hunforgeable now with hnone | ⟨call, hcall, rfl⟩
  · rw [hnone] at hsome
    cases hsome
  · obtain ⟨accepted, hverify⟩ := exists_verify_token call now
    rw [hverify] at hsome
    have haccepted : accepted = some memberId := hsome
    exact ⟨call, hcall, rfl, (verify_token_some (haccepted ▸ hverify)).1.symm⟩

/-- No string but an issued token is accepted, and the member of an accepted token is the one it
was issued for, before its expiry. Nothing that is presented makes `verify` throw. -/
theorem verify_sound (hunforgeable : Unforgeable hmac service calls presented) (now : Date) :
    ∃ accepted, service.verify hmac presented now.getTime = .ok accepted ∧ ∀ memberId,
      accepted = some memberId → (∃ call ∈ calls, call.token hmac service = presented) ∧
        ∀ call ∈ calls, call.token hmac service = presented → memberId = call.memberId ∧
          ∃ expiry, call.expiresAt.getTime = some expiry ∧
            ∀ t, now.getTime = some t → t < expiry := by
  rcases verify_eq_none_or hunforgeable now.getTime with hnone | ⟨call, hcall, htoken⟩
  · refine ⟨none, hnone, fun memberId h => ?_⟩
    cases h
  · obtain ⟨accepted, hverify⟩ := exists_verify_token call now.getTime
    refine ⟨accepted, htoken ▸ hverify, fun memberId haccepted => ⟨⟨call, hcall, htoken⟩, ?_⟩⟩
    intro other _ hother
    have hother : service.verify hmac (other.token hmac service) now.getTime =
        .ok (some memberId) := by
      rw [hother, ← htoken, hverify, haccepted]
    obtain ⟨hmember, expiry, hexpiry, hearly⟩ := verify_token_some hother
    refine ⟨hmember, expiry, hexpiry, fun t ht => ?_⟩
    by_contra hlate
    exact hearly ((Date.toNumber_le_iff hexpiry ht).mpr (by omega))

/-! A token that is presented a minute before it expires. -/

def someSecret : SessionTokenService where
  secret := "test-secret"
  secret_visible := by decide

def someCall : IssueCall where
  memberId := "m_1"
  expiresAt := { getTime := some 1783598460000, inRange := by decide }

/-- HMAC-SHA256 of the payload of `someCall` under the secret of `someSecret`, and zeros for
everything else. -/
def someHmac (key message : Bytes) : Bytes :=
  if key = utf8 "test-secret" ∧ message = utf8 "eyJzdWIiOiJtXzEiLCJleHAiOjE3ODM1OTg0NjAwMDB9" then
    [231, 86, 183, 190, 41, 60, 58, 41, 2, 42, 42, 56, 23, 183, 7, 26, 196, 106, 189, 251, 154, 124,
      44, 195, 106, 196, 113, 79, 105, 52, 211, 230]
  else List.replicate 32 0

lemma payloadOf_someCall : payloadOf someCall.memberId someCall.expiresAt.getTime =
    "eyJzdWIiOiJtXzEiLCJleHAiOjE3ODM1OTg0NjAwMDB9" := by decide +kernel

lemma token_someCall : someCall.token someHmac someSecret =
    "eyJzdWIiOiJtXzEiLCJleHAiOjE3ODM1OTg0NjAwMDB9.51a3vik8OikCKio4F7cHGsRqvfuafCzDasRxT2k00-Y" := by
  decide +kernel

lemma unforgeable_someCall :
    Unforgeable someHmac someSecret [someCall] (someCall.token someHmac someSecret) := by
  intro payload _ hsign
  by_cases hpayload : utf8 payload = utf8 "eyJzdWIiOiJtXzEiLCJleHAiOjE3ODM1OTg0NjAwMDB9"
  · exact ⟨someCall, .head _, payloadOf_someCall ▸ hpayload⟩
  · have hzeros : someSecret.sign someHmac payload = toBase64url (List.replicate 32 0) :=
      congrArg toBase64url (if_neg fun h => hpayload h.2)
    have hcount := hsign.sublist.count_le 0x41
    rw [hzeros, token_someCall] at hcount
    exact absurd hcount (by decide +kernel)

def someNow : Date where
  getTime := some 1783598400000
  inRange := by decide

theorem verify_sound_someCall :
    someSecret.verify someHmac (someCall.token someHmac someSecret) someNow.getTime =
      .ok (some "m_1") ∧
    ∃ accepted, someSecret.verify someHmac (someCall.token someHmac someSecret) someNow.getTime =
      .ok accepted ∧ ∀ memberId, accepted = some memberId →
        (∃ call ∈ [someCall],
          call.token someHmac someSecret = someCall.token someHmac someSecret) ∧
        ∀ call ∈ [someCall], call.token someHmac someSecret = someCall.token someHmac someSecret →
          memberId = call.memberId ∧ ∃ expiry, call.expiresAt.getTime = some expiry ∧
            ∀ t, someNow.getTime = some t → t < expiry := by
  refine ⟨verify_issue.trans (readClaims_payloadOf.trans ?_), verify_sound unforgeable_someCall _⟩
  exact congrArg Except.ok (if_neg (by decide +kernel))

/-! ### The round trip -/

/-- An issued token has no white space. -/
lemma not_isSpace_of_mem_issue {u : UInt16}
    (h : u ∈ service.issue hmac memberId expiresAt) : JsString.isSpace u = false := by
  rcases List.mem_append.mp h with h | h
  · exact not_isSpace_of_mem_toBase64url h
  · rcases List.mem_cons.mp h with rfl | h
    · rfl
    · exact not_isSpace_of_mem_toBase64url h

/-- The only dot of an issued token is the one between its parts. -/
lemma count_dot_issue : (service.issue hmac memberId expiresAt).count 0x2E = 1 := by
  have hpart (bs : Bytes) : (toBase64url bs).count 0x2E = 0 :=
    List.count_eq_zero.mpr fun h => (mem_toBase64url h).2.1 rfl
  rw [issue, List.count_append, List.count_cons_self, sign, payloadOf, base64url, hpart, hpart]

/-- A token without white space is what the header holds after the scheme. -/
lemma bearerToken_of_header {request : HttpRequest} {token : JsString}
    (h : request.authorization = some ("Bearer " ++ token)) (hne : token ≠ [])
    (hspace : ∀ u ∈ token, JsString.isSpace u = false) : bearerToken request = some token := by
  have hafter : afterPrefix? "Bearer " ("Bearer " ++ token) = some token := by
    rw [afterPrefix?, if_pos (List.isPrefixOf_iff_prefix.mpr (List.prefix_append _ _)),
      List.drop_left]
  rw [bearerToken, h, Option.bind_some, hafter]
  dsimp only
  rw [JsString.trim_of_forall hspace, if_neg hne]

/-- A token passes unchanged through the header of a request, and is accepted for its member at
every time before it expires and at no other. -/
theorem issue_round_trip (hmac : Bytes → Bytes → Bytes) (service : SessionTokenService)
    (memberId : JsString) (expiresAt : Date) {expiry : ℤ} (h : expiresAt.getTime = some expiry) :
    (∀ u ∈ service.issue hmac memberId expiresAt.getTime, JsString.isSpace u = false) ∧
    (service.issue hmac memberId expiresAt.getTime).count 0x2E = 1 ∧
    (∀ request : HttpRequest,
      request.authorization = some ("Bearer " ++ service.issue hmac memberId expiresAt.getTime) →
        bearerToken request = some (service.issue hmac memberId expiresAt.getTime)) ∧
    ∀ (now : Date) (t : ℤ), now.getTime = some t →
      service.verify hmac (service.issue hmac memberId expiresAt.getTime) now.getTime =
        .ok (if t < expiry then some memberId else none) := by
  refine ⟨fun _ => not_isSpace_of_mem_issue, count_dot_issue, fun request hrequest => ?_, ?_⟩
  · apply bearerToken_of_header hrequest
    · simp [issue]
    · exact fun _ => not_isSpace_of_mem_issue
  · intro now t hnow
    have hexpired : ofInt expiry ≤ now.getTime.toNumber ↔ ¬ t < expiry := by
      rw [Date.toNumber_le_iff h hnow, not_lt]
    rw [verify_issue, readClaims_payloadOf, h]
    dsimp only
    rw [if_congr hexpired rfl rfl, ite_not]

/-- The round trip of the token above. -/
theorem issue_round_trip_someCall :
    bearerToken ⟨.me, some ("Bearer " ++ someCall.token someHmac someSecret), none⟩ =
      some (someCall.token someHmac someSecret) ∧
    someSecret.verify someHmac (someCall.token someHmac someSecret) someNow.getTime =
      .ok (some "m_1") := by
  obtain ⟨-, -, hheader, hverify⟩ :=
    issue_round_trip someHmac someSecret someCall.memberId someCall.expiresAt rfl
  exact ⟨hheader _ rfl, hverify someNow _ rfl⟩

end SessionTokenService

end WorkspaceOs.Auth

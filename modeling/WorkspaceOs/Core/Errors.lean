import WorkspaceOs.Js.Text

/-!
# What the code throws

One constructor for each error class that the code tells apart, with the fields its handlers read.
Errors of the database carry their SQLSTATE; whatever else foreign code throws is `foreign`.
-/

namespace WorkspaceOs

open Js

/-- The SQLSTATE classes that the statements of the repositories can end in. -/
inductive SqlState where
  /-- `23505`. -/
  | uniqueViolation
  /-- `23503`. -/
  | foreignKeyViolation
  /-- `22003`. -/
  | numericValueOutOfRange
  /-- `22P02`. -/
  | invalidTextRepresentation
deriving DecidableEq

/-- `CredentialVerificationFailure`. -/
inductive VerificationFailure where
  | invalidToken
  | expired
  | insufficientScope
deriving DecidableEq

inductive Thrown where
  | typeError
  | invalidMember (message : JsString)
  | invalidWorkItem (message : JsString)
  | invalidPersona (message : JsString)
  | invalidPolicy (message : JsString)
  | invalidAgentCredential (message : JsString)
  | workItemClaim (message : JsString)
  | workItemTransition (message : JsString)
  | emailAlreadyRegistered (email : JsString)
  | unknownActor (actorMemberId : JsString)
  | notAnAgent (memberId : JsString)
  | credentialVerification (reason : VerificationFailure)
  | toolCredential (toolName secretName : JsString)
  | unknownTask (task : JsString)
  | noEgressViolation (providerName : JsString)
  | quotaExceeded (memberId : JsString)
  | personaVersionConflict (personaId : JsString) (version : Float)
  | policyVersionConflict (policyId : JsString) (version : Float)
  | database (code : SqlState)
  | foreign (message : JsString)
deriving DecidableEq

/-- `requireNonBlank`, of which every domain module has a copy that throws its own error class. The
proof it returns is what the constructors keep. -/
def requireNonBlank (invalid : JsString → Thrown) (field value : JsString) :
    Except Thrown (PLift (¬ value.IsBlank)) :=
  if h : value.IsBlank then .error (invalid (field ++ " must be a non-blank string"))
  else .ok ⟨h⟩

/-- A result with the proof that it is one. -/
def attach {α : Type} : (x : Except Thrown α) → Except Thrown { a // x = .ok a }
  | .ok a => .ok ⟨a, rfl⟩
  | .error e => .error e

lemma attach_of_ok {α : Type} {x : Except Thrown α} {a : α} (h : x = .ok a) :
    attach x = .ok ⟨a, h⟩ := by
  subst h
  rfl

lemma attach_eq_error {α : Type} {x : Except Thrown α} {e : Thrown} :
    attach x = .error e ↔ x = .error e := by
  cases x <;> simp [attach]

lemma map_eq_ok {α β : Type} {x : Except Thrown α} {f : α → β} {b : β} :
    x.map f = .ok b ↔ ∃ a, x = .ok a ∧ f a = b := by
  cases x <;> simp [Except.map]

lemma map_eq_error {α β : Type} {x : Except Thrown α} {f : α → β} {e : Thrown} :
    x.map f = .error e ↔ x = .error e := by
  cases x <;> simp [Except.map]

/-- A sequence of checks succeeds when each of them does. -/
lemma bind_eq_ok {α β : Type} {x : Except Thrown α} {f : α → Except Thrown β} {b : β} :
    (x >>= f) = .ok b ↔ ∃ a, x = .ok a ∧ f a = .ok b := by
  cases x <;> simp [bind, Except.bind]

/-- A sequence of checks fails with the error of the first one that fails. -/
lemma bind_eq_error {α β : Type} {x : Except Thrown α} {f : α → Except Thrown β} {e : Thrown} :
    (x >>= f) = .error e ↔ x = .error e ∨ ∃ a, x = .ok a ∧ f a = .error e := by
  cases x <;> simp [bind, Except.bind]

/-- A check that throws, before the rest. -/
lemma check_bind_ok_iff {α : Type} {p : Prop} [Decidable p] {e : Thrown} {x : Except Thrown α}
    {f : Unit → Except Thrown α} {a : α} :
    (if p then throw e >>= f else x) = .ok a ↔ ¬ p ∧ x = .ok a := by
  by_cases hp : p <;> simp [hp, throw, throwThe, MonadExceptOf.throw, bind, Except.bind]

lemma check_ok_iff {α : Type} {p : Prop} [Decidable p] {e : Thrown} {x : Except Thrown α} {a : α} :
    (if p then throw e else x) = .ok a ↔ ¬ p ∧ x = .ok a := by
  by_cases hp : p <;> simp [hp, throw, throwThe, MonadExceptOf.throw]

variable {invalid : JsString → Thrown} {field value : JsString}

lemma requireNonBlank_of_visible (h : ¬ value.IsBlank) :
    requireNonBlank invalid field value = .ok ⟨h⟩ := dif_neg h

lemma requireNonBlank_of_blank (h : value.IsBlank) :
    requireNonBlank invalid field value =
      .error (invalid (field ++ " must be a non-blank string")) := dif_pos h

lemma requireNonBlank_error {e : Thrown} (h : requireNonBlank invalid field value = .error e) :
    e = invalid (field ++ " must be a non-blank string") := by
  by_cases hblank : value.IsBlank
  · rw [requireNonBlank_of_blank hblank] at h
    exact (Except.error.inj h).symm
  · rw [requireNonBlank_of_visible hblank] at h
    cases h

end WorkspaceOs

import WorkspaceOs.Effect.RelyGuarantee
import WorkspaceOs.Adapters.Sending
import WorkspaceOs.Server.Footprint

/-!
# Facts that last

What no step of the server undoes, whoever takes it: identifiers stay drawn by who drew them, and
members stay stored. So authentication hands a handler a member who is stored from then on.
-/

namespace WorkspaceOs

open Js Effect Relational

/-- A world with the labels of the run that led to it. -/
abbrev RecordedWorld := World × List ServerLabel

/-- Program `i` drew the identifier. -/
def Drew (history : List ServerLabel) (i : ℕ) (uuid : JsString) : Prop :=
  ⟨i, .randomUUID, .ok uuid⟩ ∈ history

/-- Drawn identifiers are known to the world, and each belongs to one program. -/
structure DrawnInv (s : RecordedWorld) : Prop where
  drawn : ∀ i uuid, Drew s.2 i uuid → uuid ∈ s.1.drawn
  drawn_once : ∀ i j uuid, Drew s.2 i uuid → Drew s.2 j uuid → i = j

/-- The member is stored. -/
def Stored (id : JsString) (s : RecordedWorld) : Prop := (s.1.db.members.find? id).isSome

section Step

variable {B : Backend} {i : ℕ} {op : ServerOp} {s s' : RecordedWorld}
  {a : Except Thrown (ServerAns op)} {id uuid : JsString}

lemma drew_concat {h : List ServerLabel} {l : ServerLabel} :
    Drew (h ++ [l]) i uuid ↔ Drew h i uuid ∨ l = ⟨i, .randomUUID, .ok uuid⟩ := by
  simp only [Drew]
  rw [List.mem_append, List.mem_singleton, eq_comm]

lemma Drew.step {exec : Semantics ServerOp ServerAns Thrown World} (hdrew : Drew s.2 i uuid) {j : ℕ}
    (h : recorded exec j op s a s') : Drew s'.2 i uuid := by
  rw [h.2]
  exact drew_concat.mpr (.inl hdrew)

/-- Identifiers stay drawn, and a new one differs from all before it. -/
lemma DrawnInv.concat {l : ServerLabel} (hinv : DrawnInv s) (hhistory : s'.2 = s.2 ++ [l])
    (hold : ∀ uuid ∈ s.1.drawn, uuid ∈ s'.1.drawn)
    (hnew : ∀ j uuid, l = ⟨j, .randomUUID, .ok uuid⟩ → uuid ∉ s.1.drawn ∧ uuid ∈ s'.1.drawn) :
    DrawnInv s' := by
  have hother {j k : ℕ} {uuid : JsString} (hl : l = ⟨j, .randomUUID, .ok uuid⟩) :
      ¬ Drew s.2 k uuid :=
    fun hdrew => (hnew j uuid hl).1 (hinv.drawn k uuid hdrew)
  constructor
  · intro j uuid hdrew
    rw [hhistory] at hdrew
    rcases drew_concat.mp hdrew with hdrew | hl
    · exact hold uuid (hinv.drawn j uuid hdrew)
    · exact (hnew j uuid hl).2
  · intro j k uuid hj hk
    rw [hhistory] at hj hk
    rcases drew_concat.mp hj with hj | hj <;> rcases drew_concat.mp hk with hk | hk
    · exact hinv.drawn_once j k uuid hj hk
    · exact absurd hj (hother hk)
    · exact absurd hk (hother hj)
    · cases hj
      cases hk
      rfl

lemma DrawnInv.step (hinv : DrawnInv s) (h : recorded (exec B) i op s a s') : DrawnInv s' := by
  obtain ⟨hexec, hhistory⟩ := h
  refine hinv.concat hhistory (fun uuid hmem => ?_) fun j uuid hl => ?_
  · by_cases hop : op = .randomUUID
    · subst hop
      cases a with
      | error e => rwa [exec_error hexec]
      | ok new =>
        rw [(exec_randomUUID hexec).2]
        exact List.mem_cons_of_mem _ hmem
    · rwa [(exec_framed hexec).drawn hop]
  · cases hl
    obtain ⟨hfresh, hw⟩ := exec_randomUUID hexec
    rw [hw]
    exact ⟨hfresh.drawn, List.mem_cons_self⟩

lemma DrawnInv.step_sent (hinv : DrawnInv s) (h : recorded (sending B) i op s a s') :
    DrawnInv s' := by
  obtain ⟨hsend, hhistory⟩ := h
  refine hinv.concat hhistory (fun uuid hmem => ?_) fun j uuid hl => ?_
  · by_cases hop : op = .randomUUID
    · subst hop
      cases a with
      | error e => rwa [sending_error hsend]
      | ok new =>
        rw [(sending_randomUUID hsend).2.2]
        exact List.mem_cons_of_mem _ hmem
    · rwa [(sending_framed hsend).drawn hop]
  · cases hl
    obtain ⟨hfresh, -, hw⟩ := sending_randomUUID hsend
    rw [hw]
    exact ⟨hfresh.drawn, List.mem_cons_self⟩

/-- Members are never deleted. -/
lemma Stored.step (hstored : Stored id s) (h : recorded (exec B) i op s a s') : Stored id s' := by
  simp only [Stored] at *
  cases op with
  | membersSave member =>
    cases a with
    | error e => rwa [exec_error h.1]
    | ok =>
      rw [(exec_membersSave h.1).1]
      exact Table.isSome_find?_set hstored
  | _ => rwa [(exec_framed h.1).members (by simp [ServerOp.table])]

lemma Stored.step_sent (hstored : Stored id s) (h : recorded (sending B) i op s a s') :
    Stored id s' := by
  simp only [Stored] at *
  cases op with
  | membersSave member =>
    cases a with
    | error e => rwa [sending_error h.1]
    | ok =>
      obtain ⟨row, -, hset, -⟩ := sending_membersSave h.1
      rw [hset]
      exact Table.isSome_find?_set hstored
  | _ => rwa [(sending_framed h.1).members (by simp [ServerOp.table])]

end Step

/-! ### Behind authentication -/

/-- The token of the request was accepted for the member, at a time that the program has read, and
the member is stored. -/
structure Authenticated (server : Server) (request : HttpRequest) (i : ℕ) (memberId : JsString)
    (s : RecordedWorld) : Prop where
  accepted : ∃ token t, bearerToken request = some token ∧ ⟨i, .now, .ok t⟩ ∈ s.2 ∧
    server.sessions.verify token (some t) = some memberId
  stored : Stored memberId s

section Authentication

variable {B : Backend} {D : Discipline (recorded (exec B))} {i : ℕ} {server : Server}
  {request : HttpRequest} {P : RecordedWorld → Prop}

lemma stored_lasting (id : JsString) : D.Lasting (Stored id) :=
  fun _ _ _ _ _ _ _ h hstored => hstored.step h

/-- What was performed stays in the history. -/
lemma performed_lasting {exec : Semantics ServerOp ServerAns Thrown World}
    {D : Discipline (recorded exec)} (l : ServerLabel) : D.Lasting fun s => l ∈ s.2 := by
  intro j op s a s' _ _ h hl
  rw [h.2]
  exact List.mem_append_left _ hl

lemma Authenticated.step {memberId : JsString} {j : ℕ} {op : ServerOp} {s s' : RecordedWorld}
    {a : Except Thrown (ServerAns op)} (h : Authenticated server request i memberId s)
    (hexec : recorded (exec B) j op s a s') : Authenticated server request i memberId s' := by
  obtain ⟨⟨token, t, htoken, hnow, haccepted⟩, hstored⟩ := h
  refine ⟨⟨token, t, htoken, ?_, haccepted⟩, hstored.step hexec⟩
  rw [hexec.2]
  exact List.mem_append_left _ hnow

lemma authenticated_lasting (memberId : JsString) :
    D.Lasting (Authenticated server request i memberId) :=
  fun _ _ _ _ _ _ _ hexec h => h.step hexec

/-- Authentication finds a member that the token stands for, and that is stored, if any. What holds
before the clock is read may be more than what is kept. -/
lemma safe_authenticate {P₀ : RecordedWorld → Prop} (hP₀ : D.Stable i P₀) (hP : D.Stable i P)
    (hle : ∀ s, P₀ s → P s) (hnow : ∀ s, D.inv s → P₀ s → D.pre i .now s)
    (hfind : ∀ id s, D.inv s → P s → D.pre i (.membersFindById id) s)
    (hkeeps : ∀ op : ServerOp, op.Authenticates → ∀ s a s', D.inv s → P s →
      recorded (exec B) i op s a s' → P s') {s : RecordedWorld} (hs : P₀ s) :
    D.Safe i (fun r s => P s ∧ ∀ member, r = .ok (some member) →
      Authenticated server request i member.id s) (authenticate server request) s := by
  have hfound : ∀ r : Except Thrown (Option Member), D.Stable i fun s =>
      P s ∧ ∀ member, r = .ok (some member) → Authenticated server request i member.id s :=
    fun r => hP.and fun s s' h step member hr =>
      (authenticated_lasting _).stable s s' (h member hr) step
  have herr : ∀ {e s}, P s → D.Safe i (fun r s => P s ∧ ∀ member, r = .ok (some member) →
      Authenticated server request i member.id s) (.throw e : ServerProg (Option Member)) s :=
    fun hs => .throw (hfound _) ⟨hs, by simp⟩
  simp only [authenticate]
  cases htoken : bearerToken request with
  | none => exact .ret (hfound _) ⟨hle _ hs, by simp⟩
  | some token =>
    refine .perform_bind P₀ hP₀ hs hnow (fun t now t' hinv ht hexec => ?_)
      fun t e t' hinv ht hexec => herr (hkeeps _ (.inl rfl) _ _ _ hinv (hle _ ht) hexec)
    have ht' := hkeeps _ (.inl rfl) _ _ _ hinv (hle _ ht) hexec
    have hread : (⟨i, .now, .ok now⟩ : ServerLabel) ∈ t'.2 := by
      rw [hexec.2]
      exact List.mem_append_right _ (List.mem_singleton_self _)
    cases haccepted : server.sessions.verify token (some now) with
    | none => exact .ret (hfound _) ⟨ht', by simp⟩
    | some memberId =>
      have hmember : (ServerOp.membersFindById memberId).Authenticates := .inr ⟨_, rfl⟩
      refine .perform_bind _ (hP.and (performed_lasting _).stable) ⟨ht', hread⟩
        (fun u hinv hu => hfind _ u hinv hu.1) (fun u row? u' hinv hu hexec => ?_)
        fun u e u' hinv hu hexec => herr (hkeeps _ hmember _ _ _ hinv hu.1 hexec)
      have hu' := hkeeps _ hmember _ _ _ hinv hu.1 hexec
      obtain ⟨hrow, hw⟩ := exec_membersFindById hexec.1
      cases row? with
      | none => exact .ret (hfound _) ⟨hu', by simp⟩
      | some row =>
        dsimp only
        cases hmember : Db.toMember server.rt row with
        | error e => exact herr hu'
        | ok member =>
          refine .ret (hfound _) ⟨hu', fun _ h => ?_⟩
          cases h
          have hid : member.id = memberId :=
            (Db.toMember_ok hmember).1.trans (Table.key_of_find? hrow.symm)
          refine ⟨⟨token, now, htoken, ?_, hid ▸ haccepted⟩, ?_⟩
          · rw [hexec.2]
            exact List.mem_append_left _ hu.2
          · rw [Stored, hw, hid, ← hrow]
            rfl

/-- A handler that is safe for every authenticated member is safe behind authentication. -/
lemma safe_withCurrentMember_of_le {P₀ : RecordedWorld → Prop} (hP₀ : D.Stable i P₀)
    (hP : D.Stable i P) (hle : ∀ s, P₀ s → P s) (hnow : ∀ s, D.inv s → P₀ s → D.pre i .now s)
    (hfind : ∀ id s, D.inv s → P s → D.pre i (.membersFindById id) s)
    (hkeeps : ∀ op : ServerOp, op.Authenticates → ∀ s a s', D.inv s → P s →
      recorded (exec B) i op s a s' → P s')
    {Q : Except Thrown Reply → RecordedWorld → Prop} {handler : Member → ServerProg Reply}
    (hhandler : ∀ member s, P s → Authenticated server request i member.id s →
      D.Safe i Q (handler member) s)
    (hunauthenticated : ∀ s, P s → D.Safe i Q (.ret (.error 401 "unauthenticated")) s)
    (hthrow : ∀ e s, P s → D.Safe i Q (.throw e) s) {s : RecordedWorld} (hs : P₀ s) :
    D.Safe i Q (withCurrentMember server request handler) s := by
  refine (safe_authenticate hP₀ hP hle hnow hfind hkeeps hs).bind (fun member? t ht => ?_)
    fun e t ht => hthrow e t ht.1
  cases member? with
  | none => exact hunauthenticated t ht.1
  | some member => exact hhandler member t ht.1 (ht.2 member rfl)

/-- The same where authentication needs nothing but what is kept. -/
lemma safe_withCurrentMember (hP : D.Stable i P)
    (hpre : ∀ op : ServerOp, op.Authenticates → ∀ s, D.inv s → P s → D.pre i op s)
    (hkeeps : ∀ op : ServerOp, op.Authenticates → ∀ s a s', D.inv s → P s →
      recorded (exec B) i op s a s' → P s')
    {Q : Except Thrown Reply → RecordedWorld → Prop} {handler : Member → ServerProg Reply}
    (hhandler : ∀ member s, P s → Authenticated server request i member.id s →
      D.Safe i Q (handler member) s)
    (hunauthenticated : ∀ s, P s → D.Safe i Q (.ret (.error 401 "unauthenticated")) s)
    (hthrow : ∀ e s, P s → D.Safe i Q (.throw e) s) {s : RecordedWorld} (hs : P s) :
    D.Safe i Q (withCurrentMember server request handler) s :=
  safe_withCurrentMember_of_le hP hP (fun _ h => h) (hpre _ (.inl rfl))
    (fun id => hpre _ (.inr ⟨id, rfl⟩)) hkeeps hhandler hunauthenticated hthrow hs

end Authentication

end WorkspaceOs

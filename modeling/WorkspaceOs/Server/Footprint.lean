import WorkspaceOs.Server.Routes

/-!
# Which operations a handler awaits

Most handlers only read. What the others write is what the proofs about runs are about.
-/

namespace WorkspaceOs

open Js Effect

/-- The operation writes no table and draws no identifier. -/
def ServerOp.ReadOnly (op : ServerOp) : Prop := op.table = none ∧ op ≠ .randomUUID

/-- The operation is one that authentication awaits. -/
def ServerOp.Authenticates (op : ServerOp) : Prop := op = .now ∨ ∃ id, op = .membersFindById id

lemma ServerOp.Authenticates.readOnly {op : ServerOp} (h : op.Authenticates) : op.ReadOnly := by
  rcases h with rfl | ⟨id, rfl⟩ <;> exact ⟨rfl, nofun⟩

/-- The operation has nothing to do with the board and its records. -/
def ServerOp.OffBoard (op : ServerOp) : Prop :=
  op.table ≠ some .workItems ∧ op.table ≠ some .activities

/-- The operation has nothing to do with members and their credentials. -/
def ServerOp.OffAccounts (op : ServerOp) : Prop :=
  op.table ≠ some .members ∧ op.table ≠ some .credentials

lemma ServerOp.ReadOnly.offAccounts {op : ServerOp} (h : op.ReadOnly) : op.OffAccounts := by
  simp [OffAccounts, h.1]

lemma ServerOp.ReadOnly.offBoard {op : ServerOp} (h : op.ReadOnly) : op.OffBoard := by
  simp [OffBoard, h.1]

section

variable (server : Server) (request : HttpRequest) (rt : Runtime)

lemma membersFindById_all (id : JsString) :
    (DrizzleMemberRepository.findById rt id).All ServerOp.ReadOnly := by
  refine .bind (.perform ⟨rfl, nofun⟩) fun row => ?_
  cases row with
  | none => exact .ret _
  | some row => exact (Prog.All.ofExcept _).map _

lemma workItemsFindById_all (id : JsString) :
    (DrizzleWorkItemRepository.findById rt id).All ServerOp.ReadOnly := by
  refine .bind (.perform ⟨rfl, nofun⟩) fun row => ?_
  cases row with
  | none => exact .ret _
  | some row => exact (Prog.All.ofExcept _).map _

lemma authenticate_all : (authenticate server request).All ServerOp.ReadOnly := by
  simp only [authenticate]
  cases bearerToken request with
  | none => exact .ret _
  | some token =>
    refine .bind (.perform ⟨rfl, nofun⟩) fun now => ?_
    cases server.sessions.verify token (some now) with
    | none => exact .ret _
    | some memberId => exact membersFindById_all server.rt memberId

lemma signupAuthenticate_all (email password : JsString) :
    (SignupService.authenticate rt email password).All ServerOp.ReadOnly := by
  refine .bind (.perform ⟨rfl, nofun⟩) fun record => ?_
  cases record with
  | none => exact .ret _
  | some record =>
    refine .bind (.perform ⟨rfl, nofun⟩) fun ok => ?_
    cases ok with
    | true => exact membersFindById_all rt _
    | false => exact .ret _

lemma getMember_all (id : JsString) : (getMember server id).All ServerOp.ReadOnly := by
  refine .bind (membersFindById_all server.rt id) fun member => ?_
  cases member <;> exact .ret _

lemma postLogin_all : (postLogin server request).All ServerOp.ReadOnly := by
  rw [postLogin]
  dsimp only
  split
  · refine .bind (signupAuthenticate_all server.rt _ _) fun member => ?_
    cases member with
    | none => exact .ret _
    | some member => exact .bind (.perform ⟨rfl, nofun⟩) fun now => .ret _
  · exact .ret _

lemma withCurrentMember_all {good : ServerOp → Prop} {handler : Member → ServerProg Reply}
    (hgood : ∀ op : ServerOp, op.ReadOnly → good op) (h : ∀ member, (handler member).All good) :
    (withCurrentMember server request handler).All good := by
  refine .bind ((authenticate_all server request).mono hgood) fun member => ?_
  cases member with
  | none => exact .ret _
  | some member => exact h member

lemma getMe_all : (getMe server request).All ServerOp.ReadOnly :=
  withCurrentMember_all server request (fun _ h => h) fun _ => .ret _

lemma listWorkItems_all : (listWorkItems server request).All ServerOp.ReadOnly :=
  withCurrentMember_all server request (fun _ h => h) fun _ =>
    .bind (.bind (.perform ⟨rfl, nofun⟩) fun _ => .ofExcept _) fun _ => .ret _

lemma postMembers_all : (postMembers server request).All fun op => ∃ m, op = .membersSave m := by
  simp only [postMembers]
  split
  · exact .ret _
  · exact .throw _
  · exact .bind (.perform ⟨_, rfl⟩) fun _ => .ret _

lemma signup_all (input : SignupInput) :
    (SignupService.signup rt input).All ServerOp.OffBoard := by
  refine .bind (.perform (by simp [ServerOp.OffBoard, ServerOp.table])) fun record => ?_
  split_ifs
  · exact .throw _
  refine .bind (.perform (by simp [ServerOp.OffBoard, ServerOp.table])) fun uuid => ?_
  refine .bind (.ofExcept _) fun member => ?_
  refine .bind (.perform (by simp [ServerOp.OffBoard, ServerOp.table])) fun _ => ?_
  refine .bind (.perform (by simp [ServerOp.OffBoard, ServerOp.table])) fun passwordHash => ?_
  refine .bind (.tryCatch (.perform (by simp [ServerOp.OffBoard, ServerOp.table])) fun e => ?_)
    fun _ => .ret _
  split_ifs <;> exact .throw _

lemma postSignup_all : (postSignup server request).All ServerOp.OffBoard := by
  simp only [postSignup]
  split
  · exact .ret _
  · refine .tryCatch (.bind (signup_all server.rt _) fun _ => .ret _) fun e => ?_
    split
    · exact .ret _
    · exact .throw _

/-- A route that is not about work items stays off the board. -/
lemma handle_offBoard (hroute : request.route ≠ .publish ∧ request.route ≠ .claimNext ∧
      ∀ id, request.route ≠ .start id ∧ request.route ≠ .complete id) :
    (handle server request).All ServerOp.OffBoard := by
  have hread : ∀ op : ServerOp, op.ReadOnly → op.OffBoard := fun _ h => h.offBoard
  simp only [handle]
  cases hr : request.route with
  | postMembers =>
    apply (postMembers_all server request).mono
    rintro _ ⟨m, rfl⟩
    simp [ServerOp.OffBoard, ServerOp.table]
  | getMember id => exact (getMember_all server id).mono hread
  | signup => exact postSignup_all server request
  | login => exact (postLogin_all server request).mono hread
  | me => exact (getMe_all server request).mono hread
  | listWorkItems => exact (listWorkItems_all server request).mono hread
  | publish => exact absurd hr hroute.1
  | claimNext => exact absurd hr hroute.2.1
  | start id => exact absurd hr (hroute.2.2 id).1
  | complete id => exact absurd hr (hroute.2.2 id).2

lemma recordWork_all (member : Member) (action : JsString) (item : WorkItem) :
    (recordWork member action item).All ServerOp.OffAccounts := by
  refine .tryCatch (.perform (by simp [ServerOp.OffAccounts, ServerOp.table])) fun e => ?_
  split_ifs <;> exact .throw _

lemma publish_all : (publish server request).All ServerOp.OffAccounts := by
  apply withCurrentMember_all server request (fun _ h => h.offAccounts)
  intro member
  dsimp only
  split
  · exact .ret _
  refine .bind (.perform (by simp [ServerOp.OffAccounts, ServerOp.table])) fun uuid => ?_
  refine .bind (.ofExcept _) fun item => ?_
  refine .bind (.perform (by simp [ServerOp.OffAccounts, ServerOp.table])) fun _ => ?_
  exact .bind (recordWork_all member _ item) fun _ => .ret _

lemma claimNext_all : (claimNext server request).All ServerOp.OffAccounts := by
  apply withCurrentMember_all server request (fun _ h => h.offAccounts)
  intro member
  refine .bind (.perform (by simp [ServerOp.OffAccounts, ServerOp.table])) fun claimed? => ?_
  cases claimed? with
  | none => exact .ret _
  | some claimed => exact .bind (recordWork_all member _ claimed) fun _ => .ret _

lemma transition_all (id action : JsString) (apply : WorkItem → Except Thrown WorkItem) :
    (transition server request id action apply).All ServerOp.OffAccounts := by
  apply withCurrentMember_all server request (fun _ h => h.offAccounts)
  intro member
  refine .bind ((workItemsFindById_all server.rt id).mono fun _ h => h.offAccounts) fun item? => ?_
  cases item? with
  | none => exact .ret _
  | some item =>
    dsimp only
    split_ifs
    · exact .ret _
    split
    · exact .ret _
    · exact .throw _
    · refine .bind (.perform (by simp [ServerOp.OffAccounts, ServerOp.table])) fun _ => ?_
      exact .bind (recordWork_all member _ _) fun _ => .ret _

/-- Only `POST /members` and signup write members and credentials. -/
lemma handle_offAccounts (hroute : request.route ≠ .postMembers ∧ request.route ≠ .signup) :
    (handle server request).All ServerOp.OffAccounts := by
  have hread : ∀ op : ServerOp, op.ReadOnly → op.OffAccounts := fun _ h => h.offAccounts
  simp only [handle]
  cases hr : request.route with
  | postMembers => exact absurd hr hroute.1
  | signup => exact absurd hr hroute.2
  | getMember id => exact (getMember_all server id).mono hread
  | login => exact (postLogin_all server request).mono hread
  | me => exact (getMe_all server request).mono hread
  | listWorkItems => exact (listWorkItems_all server request).mono hread
  | publish => exact publish_all server request
  | claimNext => exact claimNext_all server request
  | start id => exact transition_all server request id _ _
  | complete id => exact transition_all server request id _ _

end

end WorkspaceOs

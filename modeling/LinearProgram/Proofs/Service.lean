import Mathlib
import LinearProgram.Json.Printer
import LinearProgram.Proofs.Description
import LinearProgram.Proofs.Survival
import LinearProgram.Service
/-!
# What the service guarantees

Two statements are about every description and every solver.

* `agreesOnValidity`: what is checked before normalising is what is checked after it.  The
  violations of the normal form are those of the model, less those of variables that
  disappear, so a model that is called valid is never refused, and a description that stands
  for no model is refused both times with the same sentence.
* `guardsSolver`: a solver is asked at most once, and only about a normal form without
  violations; the status says whether it was asked and what it answered, and `shown` is what is
  sent of a solution.

## How the proof goes

`Refuses` and `IsReady` say when a description is refused and which model is made ready, and one
of the two holds for every description (`refuses_or_isReady`), since every model of a
description has a normal form.  `respond_solve_of_refuses` and `respond_solve_of_isReady` give
the whole reply in the two cases.  What remains is the step that a response takes on its way out,
where it becomes an internal error if it holds a surrogate (`sent_detail`, `sent_solved`).
-/
namespace LinearProgram.Service

open LinearProgram.Description (SolverKind)

/-! ## What can be sent -/

theorem sent_detail (status : Nat) (sentence : Text) :
    (detail status sentence).sent =
      if sentence.isWellFormed then detail status sentence else internalError := by
  have hkey : Text.isWellFormed (Text.ofString "detail") = true := by decide
  have hbody : (detail status sentence).body.isWritable = sentence.isWellFormed := by
    simp [detail, Body.isWritable, Json.all, Json.allFields, hkey]
  rw [Response.sent, hbody]

/-- What is sent of a solution: the word for its status, and under each name the value, or null in
the place of an infinity or NaN, which have no JSON of their own. -/
def shown (s : Solution) : Json :=
  .object [
    ("status", .text (match s.status with
      | .optimal => "optimal"
      | .infeasible => "infeasible"
      | .unbounded => "unbounded"
      | .unsolved => "unsolved"
      | .undefined => "undefined")),
    ("variables", .object
      (s.values.map fun v => (v.1, if Double.isFinite v.2 then .real v.2 else .null)))]

theorem mapFields_values (f : Float → Json) (values : List (Text × Float)) :
    Json.mapFields f (values.map fun v => (v.1, .real v.2)) =
      values.map fun v => (v.1, f v.2) := by
  induction values with
  | nil => rfl
  | cons v values ih => simp [Json.mapFields, Json.mapReals, ih]

theorem solved_eq (s : Solution) : solved s = ⟨200, .json (shown s)⟩ := by
  have hvalues := mapFields_values (fun x => if Double.isFinite x then .real x else .null) s.values
  obtain ⟨status, values⟩ := s
  cases status <;>
    simpa [solved, shown, finiteOnly, Description.solutionSchema, Description.statusSchema,
      Schema.write, Fields.write, Json.mapReals, Json.mapFields, Status.name] using hvalues

theorem all_values (values : List (Text × Float)) :
    Json.allFields (fun _ => true) Text.isWellFormed
      (values.map fun v => (v.1, if Double.isFinite v.2 then .real v.2 else .null)) =
        values.all (·.1.isWellFormed) := by
  induction values with
  | nil => rfl
  | cons v values ih =>
    have hvalue : Json.all (fun _ => true) Text.isWellFormed
        (if Double.isFinite v.2 then .real v.2 else .null) = true := by
      split <;> rfl
    simp [Json.allFields, hvalue, ih]

theorem sent_solved (s : Solution) : (solved s).sent =
    if s.values.all (·.1.isWellFormed) then ⟨200, .json (shown s)⟩ else internalError := by
  have hkeys : Text.isWellFormed (Text.ofString "status") = true ∧
      Text.isWellFormed (Text.ofString "variables") = true := by decide
  have hbody : Body.isWritable (.json (shown s)) = s.values.all (·.1.isWellFormed) := by
    rw [← all_values]
    cases hstatus : s.status <;>
      simp [shown, hstatus, Body.isWritable, Json.all, Json.allFields, hkeys] <;>
      exact fun _ => by decide
  rw [solved_eq, Response.sent, hbody]

/-! ## Refused or ready -/

/-- The description is refused with a sentence: it stands for no model, or the normal form of its
model has violations. -/
inductive Refuses (d : Description.Model) : Text → Prop where
  | inconsistent {e : Description.Inconsistency} (h : d.toModel = .error e) : Refuses d e.message
  | invalid {m n : Model Float} (h : d.toModel = .ok m) (hn : m.Normalizes n)
      (hv : n.violations ≠ []) : Refuses d (Text.join " " (n.violations.map (·.message)))

/-- The normal form of the model of a description, if nothing is wrong with it. -/
def IsReady (d : Description.Model) (n : Model Float) : Prop :=
  ∃ m, d.toModel = .ok m ∧ m.Normalizes n ∧ n.violations = []

variable {d : Description.Model} {n : Model Float} {sentence : Text}

theorem refuses_or_isReady (d : Description.Model) : (∃ s, Refuses d s) ∨ ∃ n, IsReady d n := by
  cases hd : d.toModel with
  | error e => exact .inl ⟨_, .inconsistent hd⟩
  | ok m =>
    obtain ⟨n, hn⟩ := Description.exists_normalizes_of_toModel hd
    by_cases hv : n.violations = []
    · exact .inr ⟨n, m, hd, hn, hv⟩
    · exact .inl ⟨_, .invalid hd hn hv⟩

theorem prepared_of_refuses (h : Refuses d sentence) :
    ∃ e, prepared d = .error e ∧ e.response = detail 400 sentence := by
  cases h with
  | inconsistent hd => exact ⟨_, by rw [prepared, hd], rfl⟩
  | @invalid m n hd hn hv =>
    refine ⟨.invalid n.violations, ?_, rfl⟩
    have hvalid : n.isValid = false := by simpa [Model.isValid] using hv
    simp [prepared, hd, Model.normalized?_eq_some_iff.mpr hn, hvalid]

theorem prepared_of_isReady (h : IsReady d n) : prepared d = .ok n := by
  obtain ⟨m, hd, hn, hv⟩ := h
  have hvalid : n.isValid = true := by simpa [Model.isValid] using hv
  simp [prepared, hd, Model.normalized?_eq_some_iff.mpr hn, hvalid]

/-! ## Replies -/

/-- A request that hands in a body. -/
def posted (path : String) (body : List UInt8) : Request :=
  ⟨Text.ofString "POST", Text.ofString path, body⟩

variable {solver : SolverKind → Model Float → SolverAnswer} {body : List UInt8}

theorem respond_posted {path : String} (route : Route)
    (hroute : route? (Text.ofString path) = some route)
    (hmethod : route.method = Text.ofString "POST") :
    respond solver (posted path body) =
      ⟨((route.response solver body).run []).1.sent, ((route.response solver body).run []).2⟩ := by
  have hhead : Text.ofString "POST" ≠ Text.ofString "HEAD" := by decide
  simp [respond, responseInFull, posted, hroute, hmethod, hhead]
  rfl

theorem respond_validate (h : readBody Description.modelSchema body = .ok d) :
    respond solver (posted "/v1/validate" body) = ⟨(validate d).sent, []⟩ := by
  rw [respond_posted .validate (by decide +kernel) rfl]
  simp [Route.response, h]
  exact ⟨rfl, rfl⟩

variable {r : Description.Request}

theorem respond_solve (h : readBody Description.requestSchema body = .ok r) :
    respond solver (posted "/v1/solve" body) =
      ⟨((Service.solve solver r).run []).1.sent, ((Service.solve solver r).run []).2⟩ := by
  rw [respond_posted .solve (by decide +kernel) rfl]
  simp [Route.response, h]

/-- A refused description is answered for without asking a solver. -/
theorem respond_solve_of_refuses (h : readBody Description.requestSchema body = .ok r)
    (hr : Refuses r.model sentence) :
    respond solver (posted "/v1/solve" body) = ⟨(detail 400 sentence).sent, []⟩ := by
  obtain ⟨e, he, hresponse⟩ := prepared_of_refuses hr
  have hsolve : (Service.solve solver r).run [] = (detail 400 sentence, []) := by
    simp only [Service.solve, he, hresponse]
    rfl
  rw [respond_solve h, hsolve]

/-- A model that is made ready is handed to the solver that the request asks for. -/
theorem respond_solve_of_isReady (h : readBody Description.requestSchema body = .ok r)
    (hn : IsReady r.model n) :
    respond solver (posted "/v1/solve" body) =
      ⟨(answered r.options.solver (solver r.options.solver n)).sent, [(r.options.solver, n)]⟩ := by
  have hsolve : (Service.solve solver r).run [] =
      (answered r.options.solver (solver r.options.solver n), [(r.options.solver, n)]) := by
    simp only [Service.solve, prepared_of_isReady hn]
    rfl
  rw [respond_solve h, hsolve]

/-! ## Validity before and after normalising -/

/-- The response says that the model is valid. -/
def SaysValid (r : Response) : Prop :=
  r.status = 200 ∧ ∃ fields, r.body = .json (.object fields) ∧
    (Text.ofString "valid", Json.bool true) ∈ fields

/-- Checking a description and solving its model agree on what is valid. -/
structure AgreesOnValidity (d : Description.Model) : Prop where
  /-- The violations after normalising are those before it, less those of lost variables. -/
  violations : ∀ m, d.toModel = .ok m → ∃ n, m.normalized? = some n ∧
    n.violations.Perm (m.violations.filter fun e => ¬ e.IsLost m n)
  /-- What is called valid is not refused. -/
  accepted : ∀ {solver : SolverKind → Model Float → SolverAnswer} {checked asked : List UInt8}
    {options : Description.Options}, readBody Description.modelSchema checked = .ok d →
      readBody Description.requestSchema asked = .ok ⟨d, options⟩ →
        SaysValid (respond solver (posted "/v1/validate" checked)).response →
          (respond solver (posted "/v1/solve" asked)).response.status ≠ 400
  /-- What cannot be checked is refused with the same sentence. -/
  refused : ∀ {solver : SolverKind → Model Float → SolverAnswer} {checked asked : List UInt8}
    {options : Description.Options}, readBody Description.modelSchema checked = .ok d →
      readBody Description.requestSchema asked = .ok ⟨d, options⟩ →
        (respond solver (posted "/v1/validate" checked)).response.status = 400 →
          (respond solver (posted "/v1/solve" asked)).response =
            (respond solver (posted "/v1/validate" checked)).response

theorem toModel_of_saysValid (h : SaysValid (validate d).sent) :
    ∃ m, d.toModel = .ok m ∧ m.violations = [] := by
  obtain ⟨hstatus, fields, hbody, hvalid⟩ := h
  unfold validate at hstatus hbody
  cases hd : d.toModel with
  | error e =>
    simp only [hd] at hstatus
    rw [sent_detail] at hstatus
    split at hstatus <;> cases hstatus
  | ok m =>
    simp only [hd, Response.sent] at hbody
    split at hbody
    · refine ⟨m, rfl, ?_⟩
      have hfields : Json.object [("valid", .bool m.isValid),
          ("errors", .array ((m.violations.map issue).map Description.issueSchema.write))] =
            .object fields := by
        simpa [Description.reportSchema, Schema.write, Fields.write, report] using hbody
      obtain rfl := Json.object.inj hfields
      have hother : Text.ofString "valid" ≠ Text.ofString "errors" := by decide
      have hisValid : m.isValid = true := by
        obtain hfirst | hrest := List.mem_cons.mp hvalid
        · exact (Json.bool.inj (Prod.mk.inj hfirst).2).symm
        · exact absurd (Prod.mk.inj (List.mem_singleton.mp hrest)).1 hother
      simpa [Model.isValid] using hisValid
    · cases hbody

theorem toModel_of_status_validate (h : (validate d).sent.status = 400) :
    ∃ e, d.toModel = .error e ∧ validate d = detail 400 e.message := by
  unfold validate at h ⊢
  cases hd : d.toModel with
  | error e => exact ⟨e, rfl, rfl⟩
  | ok m =>
    simp only [hd, Response.sent] at h
    split at h <;> cases h

/-- Nothing that a solver answers makes a refusal. -/
theorem status_answered (kind : SolverKind) (a : SolverAnswer) :
    (answered kind a).sent.status ≠ 400 := by
  unfold Response.sent
  split
  · cases a <;> simp [answered, solved, detail, internalError]
  · simp [internalError]

/-- **Checking before normalising agrees with checking after it**, for every description. -/
theorem agreesOnValidity (d : Description.Model) : AgreesOnValidity d where
  violations m hd := by
    obtain ⟨n, hn⟩ := Description.exists_normalizes_of_toModel hd
    exact ⟨n, Model.normalized?_eq_some_iff.mpr hn,
      hn.perm_violations (Description.nodup_names_of_toModel hd)⟩
  accepted hchecked hasked hvalid := by
    rw [respond_validate hchecked] at hvalid
    obtain ⟨m, hd, hm⟩ := toModel_of_saysValid hvalid
    obtain ⟨n, hn⟩ := Description.exists_normalizes_of_toModel hd
    have hready : IsReady d n :=
      ⟨m, hd, hn, hn.violations_eq_nil (Description.nodup_names_of_toModel hd) hm⟩
    rw [respond_solve_of_isReady hasked hready]
    exact status_answered _ _
  refused hchecked hasked hstatus := by
    rw [respond_validate hchecked] at hstatus ⊢
    obtain ⟨e, hd, hresponse⟩ := toModel_of_status_validate hstatus
    rw [respond_solve_of_refuses hasked (.inconsistent hd), hresponse]

/-! ## What reaches a solver -/

/-- What a request to solve a model comes to.  A response that would hold a surrogate is sent as
an internal error, and a solution with null in the place of what is not finite. -/
structure GuardsSolver (solver : SolverKind → Model Float → SolverAnswer) (body : List UInt8)
    (r : Description.Request) (reply : Reply) : Prop where
  once : reply.calls.length ≤ 1
  /-- A solver gets a model in normal form without violations, and it is the one asked for. -/
  called : ∀ call ∈ reply.calls, call.1 = r.options.solver ∧ IsReady r.model call.2 ∧
    call.2.violations = [] ∧ (∀ f ∈ call.2.functions, f.IsNormal) ∧
      (call.2.vars.map (·.name)).Nodup
  /-- No solver is asked exactly if the description is refused. -/
  calls_eq_nil_iff : reply.calls = [] ↔ ∃ s, Refuses r.model s
  /-- What another solver would answer elsewhere does not matter. -/
  only : ∀ other, (∀ call ∈ reply.calls, other call.1 call.2 = solver call.1 call.2) →
    respond other (posted "/v1/solve" body) = reply
  refused : ∀ s, Refuses r.model s →
    reply.response = if s.isWellFormed then ⟨400, .json (.object [("detail", .text s)])⟩
      else ⟨500, .text "Internal Server Error"⟩
  status_eq_400_iff : reply.response.status = 400 ↔ ∃ s, Refuses r.model s ∧ s.isWellFormed
  status_eq_502_iff : reply.response.status = 502 ↔
    ∃ call ∈ reply.calls, solver call.1 call.2 = .nothing
  solved : ∀ call ∈ reply.calls, ∀ s, solver call.1 call.2 = .solution s →
    reply.response = if s.values.all (·.1.isWellFormed) then ⟨200, .json (shown s)⟩
      else ⟨500, .text "Internal Server Error"⟩

theorem Refuses.unique {s t : Text} (hs : Refuses d s) (ht : Refuses d t) : s = t := by
  obtain ⟨e, he, hes⟩ := prepared_of_refuses hs
  obtain ⟨e', he', het⟩ := prepared_of_refuses ht
  obtain rfl := Except.error.inj (he.symm.trans he')
  have hdetail : detail 400 s = detail 400 t := hes.symm.trans het
  simpa [detail] using hdetail

theorem IsReady.not_refuses (h : IsReady d n) : ¬ ∃ s, Refuses d s := by
  rintro ⟨s, hs⟩
  obtain ⟨e, he, _⟩ := prepared_of_refuses hs
  rw [prepared_of_isReady h] at he
  cases he

/-- A solver can tell the variables of a model that is made ready by their names. -/
theorem IsReady.nodup_names (h : IsReady d n) : (n.vars.map (·.name)).Nodup := by
  obtain ⟨m, hd, hn, _⟩ := h
  exact hn.nodup_names (Description.nodup_names_of_toModel hd)

theorem IsReady.isNormal (h : IsReady d n) {f : LinearFunction Float} (hf : f ∈ n.functions) :
    f.IsNormal := by
  obtain ⟨m, _, hn, _⟩ := h
  exact hn.isNormal hf

theorem IsReady.violations (h : IsReady d n) : n.violations = [] := by
  obtain ⟨m, _, _, hv⟩ := h
  exact hv

theorem sent_nothing (kind : SolverKind) :
    (answered kind .nothing).sent = answered kind .nothing := by
  cases kind <;> rw [answered, sent_detail] <;> rfl

theorem status_eq_502_iff (kind : SolverKind) (a : SolverAnswer) :
    (answered kind a).sent.status = 502 ↔ a = .nothing := by
  cases a with
  | solution s =>
    rw [answered, sent_solved]
    split <;> simp [internalError]
  | nothing =>
    rw [sent_nothing]
    simp [answered, detail]
  | failure => simp [answered, Response.sent, internalError, Body.isWritable]

theorem guardsSolver_of_refuses (h : readBody Description.requestSchema body = .ok r)
    (hr : Refuses r.model sentence) :
    GuardsSolver solver body r (respond solver (posted "/v1/solve" body)) := by
  rw [respond_solve_of_refuses h hr, sent_detail]
  exact {
    once := by simp
    called := by simp
    calls_eq_nil_iff := by simpa using ⟨_, hr⟩
    only := fun other _ => by rw [respond_solve_of_refuses h hr, sent_detail]
    refused := fun s hs => by rw [hs.unique hr]; rfl
    status_eq_400_iff := by
      have hsentence : (∃ s, Refuses r.model s ∧ s.isWellFormed) ↔ sentence.isWellFormed :=
        ⟨fun ⟨s, hs, hwell⟩ => hs.unique hr ▸ hwell, fun hwell => ⟨_, hr, hwell⟩⟩
      rw [hsentence]
      split_ifs with hwell <;> simp [detail, internalError, hwell]
    status_eq_502_iff := by split_ifs <;> simp [detail, internalError]
    solved := by simp }

theorem guardsSolver_of_isReady (h : readBody Description.requestSchema body = .ok r)
    (hn : IsReady r.model n) :
    GuardsSolver solver body r (respond solver (posted "/v1/solve" body)) := by
  rw [respond_solve_of_isReady h hn]
  exact {
    once := by simp
    called := fun call hcall => by
      obtain rfl := List.mem_singleton.mp hcall
      exact ⟨rfl, hn, hn.violations, fun f hf => hn.isNormal hf, hn.nodup_names⟩
    calls_eq_nil_iff := by simpa using hn.not_refuses
    only := fun other hother => by
      rw [respond_solve_of_isReady h hn, hother _ (List.mem_singleton_self _)]
    refused := fun s hs => absurd ⟨s, hs⟩ hn.not_refuses
    status_eq_400_iff := by
      constructor
      · intro hstatus
        exact absurd hstatus (status_answered _ _)
      · rintro ⟨s, hs, _⟩
        exact absurd ⟨s, hs⟩ hn.not_refuses
    status_eq_502_iff := by simpa using status_eq_502_iff _ _
    solved := fun call hcall s hs => by
      obtain rfl := List.mem_singleton.mp hcall
      dsimp only at hs
      rw [hs, answered, sent_solved]
      rfl }

/-- **Only checked models in normal form reach a solver.** -/
theorem guardsSolver (h : readBody Description.requestSchema body = .ok r) :
    GuardsSolver solver body r (respond solver (posted "/v1/solve" body)) := by
  obtain ⟨s, hs⟩ | ⟨n, hn⟩ := refuses_or_isReady r.model
  · exact guardsSolver_of_refuses h hs
  · exact guardsSolver_of_isReady h hn

/-- A request to solve `v = 0`, with the names of the declared variables. -/
def zeroRequest (names : List Text) (v : Text) : Description.Request :=
  ⟨⟨Text.ofString "m", names.map fun x => ⟨x, .real, none, none⟩, none,
    [⟨⟨[⟨v, 1.0⟩], 0.0⟩, .eq, 0.0, []⟩]⟩, ⟨.cbc⟩⟩

/-- The body of the request, without what goes without saying. -/
def zeroBody (names : List Text) (v : Text) : List UInt8 :=
  let model : Json := .object [("name", .text "m"),
    ("variables", .array (names.map fun x => .object [("name", .text x)])),
    ("constraints", .array [.object [("function", .object
      [("terms", .array [.object [("variable", .text v)]])])]])]
  (Json.object [("model", model)]).print.toUTF8.toList

theorem guardsSolver_zeroRequest :
    let x : Text := Text.ofString "x"
    let reply := respond (fun _ _ => .nothing) (posted "/v1/solve" (zeroBody [x] x))
    readBody Description.requestSchema (zeroBody [x] x) = .ok (zeroRequest [x] x) ∧
      reply.calls ≠ [] ∧
      GuardsSolver (fun _ _ => .nothing) (zeroBody [x] x) (zeroRequest [x] x) reply := by
  intro x reply
  have hread : readBody Description.requestSchema (zeroBody [x] x) = .ok (zeroRequest [x] x) :=
    eq_ok_of_toOption (by decide +kernel)
  have hguards : GuardsSolver (fun _ _ => .nothing) (zeroBody [x] x) (zeroRequest [x] x) reply :=
    guardsSolver hread
  have hprepared : (prepared (zeroRequest [x] x).model).toOption.isSome := by decide +kernel
  refine ⟨hread, ?_, hguards⟩
  rw [Ne, hguards.calls_eq_nil_iff]
  rintro ⟨s, hs⟩
  obtain ⟨e, he, _⟩ := prepared_of_refuses hs
  rw [he] at hprepared
  cases hprepared

/-- The sentence about an unknown variable cannot be sent if its name is a surrogate. -/
theorem status_unknownSurrogate :
    let v : Text := [.surrogate 2047]
    readBody Description.requestSchema (zeroBody [] v) = .ok (zeroRequest [] v) ∧
      (∃ e, (zeroRequest [] v).model.toModel = .error e) ∧
      ∀ solver, (respond solver (posted "/v1/solve" (zeroBody [] v))).response.status = 500 := by
  intro v
  have hread : readBody Description.requestSchema (zeroBody [] v) = .ok (zeroRequest [] v) :=
    eq_ok_of_toOption (by decide +kernel)
  have hmodel : (zeroRequest [] v).model.toModel =
      .error (.unknownVariable (.numbered 0) v) := by decide +kernel
  have hsentence : Text.isWellFormed
      (Description.Inconsistency.unknownVariable (.numbered 0) v).message = false := by
    decide +kernel
  refine ⟨hread, ⟨_, hmodel⟩, fun solver => ?_⟩
  rw [respond_solve_of_refuses hread (.inconsistent hmodel), sent_detail, hsentence]
  rfl

end LinearProgram.Service

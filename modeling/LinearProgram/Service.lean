import LinearProgram.Description.Model
import LinearProgram.Json.Parser
import LinearProgram.Service.Address
import LinearProgram.Validation
/-!
# The service

Requests come with a method, a path and bytes.  A model can be checked, and it can
be solved: it is brought into normal form, checked, and handed to the solver that
the request asks for, if nothing is wrong.  `respond` is given the solvers as a
function.  Whatever asks a solver is a step in `Asking`, which keeps account of it, so the
reply says besides the response which models were handed to which solvers.

A response has to be written as JSON in UTF-8.  One that would hold a surrogate, or that
would show an infinity or NaN among the values it complains of, becomes an internal error.
-/
namespace LinearProgram.Service

open LinearProgram.Description (SolverKind)

/-- A request as it comes in. -/
structure Request where
  method : Text
  path : Text
  body : List UInt8

/-- What a response holds. -/
inductive Body where
  | json (value : Json)
  | problems (ps : List Problem)
  | text (s : String)
  /-- A page that documents the service, whose content is not fixed here. -/
  | page
  | empty

/-- A response: its status and what it holds. -/
structure Response where
  status : Nat
  body : Body

/-- How a solver answers: with a solution or none, or not at all. -/
inductive SolverAnswer where
  | solution (s : Solution)
  | nothing
  | failure
deriving DecidableEq, Repr

/-- A response, and the models that were handed to solvers for it, in order. -/
structure Reply where
  response : Response
  calls : List (SolverKind × Model Float)

/-- The model that was handed to a solver first, if one was. -/
def Reply.handed? (r : Reply) : Option (SolverKind × Model Float) :=
  r.calls.head?

/-- A step on the way to a response, which may hand models to solvers. -/
abbrev Asking := StateM (List (SolverKind × Model Float))

/-- Hands a model to a solver. -/
def ask (solver : SolverKind → Model Float → SolverAnswer) (kind : SolverKind)
    (m : Model Float) : Asking SolverAnswer := do
  modify (· ++ [(kind, m)])
  return solver kind m

/-! ## Responses -/

/-- A response that tells why. -/
def detail (status : Nat) (sentence : Text) : Response :=
  ⟨status, .json (.object [("detail", .text sentence)])⟩

/-- The response when nothing is known but that it failed. -/
def internalError : Response :=
  ⟨500, .text "Internal Server Error"⟩

/-- The response that points to the same path without the slashes at its end. -/
def redirection : Response :=
  ⟨307, .empty⟩

/-- The response to the question whether the service lives. -/
def healthy : Response :=
  ⟨200, .json (.object [("status", .text "ok")])⟩

/-- Whether a body can be written. -/
def Body.isWritable : Body → Bool
  | .json value => value.all (fun _ => true) Text.isWellFormed
  | .problems ps => ps.all (·.input.all Double.isFinite Text.isWellFormed)
  | .text _ | .page | .empty => true

/-- The response that is sent: an internal error in the place of one that cannot be
written. -/
def Response.sent (r : Response) : Response :=
  if r.body.isWritable then r else internalError

/-- A value without infinities and NaN, which have no JSON of their own. -/
def finiteOnly (j : Json) : Json :=
  j.mapReals fun x => if Double.isFinite x then .real x else .null

/-- The response with a solution. -/
def solved (s : Solution) : Response :=
  ⟨200, .json (finiteOnly (Description.solutionSchema.write s))⟩

/-! ## Checking -/

/-- A violation as it is reported. -/
def issue (v : Violation Float) : Description.Issue :=
  ⟨v.kind, v.subjectName, v.message⟩

/-- The report on a model. -/
def report (m : Model Float) : Description.Report :=
  ⟨m.isValid, m.violations.map issue⟩

/-- Checks a described model. -/
def validate (d : Description.Model) : Response :=
  match d.toModel with
  | .error e => detail 400 e.message
  | .ok m => ⟨200, .json (Description.reportSchema.write (report m))⟩

/-! ## Solving -/

/-- Why a model is not handed to a solver. -/
inductive Refusal where
  | inconsistent (e : Description.Inconsistency)
  | invalid (vs : List (Violation Float))
  | overflow

/-- The model of a description in normal form, if it can be handed to a solver. -/
def prepared (d : Description.Model) : Except Refusal (Model Float) :=
  match d.toModel with
  | .error e => .error (.inconsistent e)
  | .ok m =>
    match m.normalized? with
    | none => .error .overflow
    | some n => if n.isValid then .ok n else .error (.invalid n.violations)

/-- The response to a refusal. -/
def Refusal.response : Refusal → Response
  | inconsistent e => detail 400 e.message
  | invalid vs => detail 400 (Text.join " " (vs.map (·.message)))
  | overflow => internalError

/-- The response to a solver's answer. -/
def answered (kind : SolverKind) : SolverAnswer → Response
  | .solution s => solved s
  | .nothing => detail 502 ("Solver '" ++ kind.name ++ "' returned no result.")
  | .failure => internalError

/-- Solves the model of a request. -/
def solve (solver : SolverKind → Model Float → SolverAnswer) (r : Description.Request) :
    Asking Response := do
  match prepared r.model with
  | .error e => return e.response
  | .ok m => return answered r.options.solver (← ask solver r.options.solver m)

/-! ## Routes -/

/-- What a path stands for. -/
inductive Route where
  | health
  | validate
  | solve
  | page
deriving DecidableEq, Repr

/-- The paths of the service. -/
def routes : List (String × Route) :=
  [("/health", .health), ("/v1/health", .health), ("/v1/validate", .validate),
    ("/v1/solve", .solve), ("/docs", .page), ("/docs/oauth2-redirect", .page),
    ("/redoc", .page), ("/openapi.json", .page)]

/-- The path without the slashes at its end. -/
def withoutTrailingSlashes (path : Text) : Text :=
  (path.reverse.dropWhile (· = .char '/')).reverse

/-- The path without the line feed at its end, if it ends with one. -/
def withoutLineFeed (path : Text) : Text :=
  if path.getLast? = some (.char '\n') then path.dropLast else path

/-- What a path stands for; a line feed at its end does not matter. -/
def route? (path : Text) : Option Route :=
  let asked := withoutLineFeed path
  (routes.find? fun r => Text.ofString r.1 = asked).map (·.2)

/-- Whether a path stands for something only without the slashes at its end. -/
def isRedirected (path : Text) : Bool :=
  path.getLast? = some (.char '/') && (route? (withoutTrailingSlashes path)).isSome

/-- The method that a route takes. -/
def Route.method : Route → Text
  | health | page => "GET"
  | validate | solve => "POST"

/-! ## Bodies -/

/-- How deep a body may be nested. -/
def deepestBody : Nat := 966

/-- Why there is no described value in a body. -/
inductive BodyFault where
  | problems (ps : List Problem)
  | unreadable

/-- The response to a body without a described value. -/
def BodyFault.response : BodyFault → Response
  | problems ps => ⟨422, .problems ps⟩
  | unreadable => detail 400 "There was an error parsing the body"

/-- The text of a body, without a byte order mark of UTF-8, if it is a text. -/
def bodyText? (body : List UInt8) : Option Text :=
  match Text.Encoding.ofBytes body with
  | .utf8 => (Text.Encoding.utf8.decode? body).map Json.skipMark
  | e => e.decode? body

/-- The value that a body describes. -/
def readBody {α : Type} (s : Schema α) (body : List UInt8) : Except BodyFault α :=
  let inBody (c : Checked α) : Except BodyFault α :=
    (Checked.under (.key "body") c).mapError .problems
  if body.isEmpty then inBody (.wrong .missing .null)
  else match bodyText? body with
    | none => .error .unreadable
    | some t =>
      match Json.readNested deepestBody t with
      | .error (.malformed _ _) => inBody (.wrong .notJson (.object []))
      | .error _ => .error .unreadable
      | .ok j => inBody (s.read .plain j)

/-- The response to a request whose path stands for a route and whose method is the right
one. -/
def Route.response (solver : SolverKind → Model Float → SolverAnswer) (body : List UInt8) :
    Route → Asking Response
  | health => return healthy
  | page => return ⟨200, .page⟩
  | validate =>
    match readBody Description.modelSchema body with
    | .error e => return e.response
    | .ok d => return Service.validate d
  | solve =>
    match readBody Description.requestSchema body with
    | .error e => return e.response
    | .ok r => Service.solve solver r

/-- The response without its body, which a request for the head alone does not get. -/
def Response.head (r : Response) : Response :=
  ⟨r.status, .empty⟩

/-- The response to a request with another method than for the head alone. -/
def responseInFull (solver : SolverKind → Model Float → SolverAnswer) (r : Request) :
    Asking Response := do
  match route? r.path with
  | none => return if isRedirected r.path then redirection else detail 404 "Not Found"
  | some route =>
    if r.method ≠ route.method then return detail 405 "Method Not Allowed"
    else return (← route.response solver r.body).sent

/-- The reply to a request. -/
def respond (solver : SolverKind → Model Float → SolverAnswer) (r : Request) : Reply :=
  let (response, calls) := (responseInFull solver r).run []
  ⟨if r.method = Text.ofString "HEAD" then response.head else response, calls⟩

end LinearProgram.Service

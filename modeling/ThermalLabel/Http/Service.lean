import ThermalLabel.Environment
import ThermalLabel.Http.Route
import ThermalLabel.Log.Journal
import ThermalLabel.Script.Run
import ThermalLabel.Storage.Layout

/-!
# The service

The application that `create_app` makes, with the routes of its blueprint: `sample`, `render`,
`operations`, `dots`, `templates` and `render_named_template`.  The service renders labels and
templates on request and answers questions about them.  Each request is answered from the session
settings and the data directory, and leaves notes in the journal: documents are accounted for, and
so are scripts that are refused and failures that nobody foresaw.  Documents of templates are sent
as octets, which fails for one that has none, and values are sent as JSON, which fails for integers
that are too long.

The template engine and the depth of readable bodies come from the platform.  The octets of a
response and headers other than those for sharing are left out.
-/
namespace ThermalLabel.Http

open Number (Decimal)

/-- What the service stands on and does not settle itself. -/
structure Platform where
  /-- The levels of lists and objects that a body may have. -/
  levels : Nat
  /-- The template engine. -/
  render : Template.Renderer

/-- A platform with the template engine of this library. -/
def Platform.ofLevels (levels : Nat) : Platform :=
  { levels, render := Template.render }

/-- A request, so many days after the one before it. -/
structure Arrival where
  request : Request
  days : Nat := 0

/-- What a request leaves in the journal. -/
structure Note where
  report : Log.Report
  message : Text
  extras : Fields := []
  cause : Option Text := none

structure Answer where
  response : Response
  notes : List Note := []

namespace Answer

def silent (r : Response) : Answer :=
  { response := r }

/-- A failure that the route itself deals with, with what it says and its trace. -/
def failed (error said trace message : Text) (extras : Fields) : Answer :=
  { response := .refusal 500 error
    notes :=
      [{ report := .exception, message, cause := some trace
         extras := extras ++ ([("erro", .text said)] : Fields) }] }

/-- A failure that no route deals with, after some notes were left. -/
def crashed (cause : Text) (notes : List Note) : Answer :=
  { response := .refusal 500 "Erro interno"
    notes := notes ++
      [{ report := .exception, message := "Erro 500 na requisição", cause := some cause }] }

/-- Sends a value, which fails for one that holds an integer too long to be written. -/
def json (v : Value) (notes : List Note) : Answer :=
  if Json.writable v then { response := .ok v, notes } else crashed Fault.longInteger.message notes

/-- Sends a document that is accounted for. -/
def document (s : Text) (notes : List Note) : Answer :=
  match s.toString? with
  | some content => { response := .document content, notes }
  | none => crashed "the document has no form in octets" notes

end Answer

/-- A parameter is set by one of the words for true. -/
def flag (r : Request) (name : String) : Bool :=
  Environment.isTrueWord Environment.trueWords (Text.strip ((r.parameter? name).getD ""))

/-- The value of a parameter, unless it is absent or empty. -/
def given? (r : Request) (name : String) : Option String :=
  (r.parameter? name).filter (· != "")

def answerSample (config : Config) (r : Request) : Answer :=
  let config := { config with suppressSeparator := .flag (!flag r "crlf") }
  match Sample.render config (.text ((given? r "texto").getD Sample.defaultText)) with
  | .ok s => .document s []
  | .error f => .crashed f.message []

/-- The steps of a script that was run. -/
def stepsOf : Value → List Value
  | .object fields => match Fields.get? fields "operations" with
    | some (.list steps) => steps
    | _ => []
  | _ => []

def answerRender (config : Config) (script : Value) : Answer :=
  match Script.run script config with
  | .ok result =>
    .json (.object [("success", .flag true), ("zpl", .text result.document),
        ("ending_y", .list result.endingYs)])
      [{ report := .audit, message := "render"
         extras := [("operations", .integer (stepsOf script).length),
           ("length", .integer result.document.length)] }]
  | .error (.error e) =>
    { response := .refusal 400 e.message
      notes :=
        [{ report := .error, message := "Script inválido"
           extras := [("erro", .text e.message)] }] }
  | .error (.fault f) => .failed "Erro ao gerar ZPL" f.message f.message "Erro ao gerar ZPL" []

/-- A list of names in a response. -/
def nameList (names : List String) : Value :=
  .list (names.map fun name : String => .text name)

def answerOperations : Answer :=
  .silent (.ok (.object [("operations", nameList Operation.sortedNames)]))

/-- Faults that lie in what was given, and not in the way it was handled. -/
def isExpected : Fault → Bool
  | .longInteger | .longNumeral _ | .notInteger _ | .decimalNaNToInteger | .doubleNaNToInteger
  | .malformedTriple _ | .arithmetic .invalidOperation => true
  | _ => false

/-- The length and the resolution that a request asks about. -/
def conversionOf (config : Config) (r : Request) : Except Fault (Decimal × Int) := do
  let inches ← readDecimal ((r.parameter? "inches").getD "")
  let dpi ← match given? r "dpi" with
    | some s => readNumeral s
    | none => config.dpi.toInteger
  return (inches, dpi)

def expected (error : Text) (f : Fault) : Answer :=
  if isExpected f then .silent (.refusal 400 error) else .crashed f.message []

def answerDots (config : Config) (r : Request) : Answer :=
  let unusable : Text := "Parâmetros inválidos"
  match conversionOf config r with
  | .error f => expected unusable f
  | .ok (inches, dpi) =>
    if !inches.isFinite || dpi ≤ 0 then .silent (.refusal 400 unusable)
    else match dots (.integer dpi) (.decimal inches) with
      | .error f => expected "Valor fora da faixa" f
      | .ok n => .json (.object [("inches", .text (Text.ofChars inches.text)),
          ("dpi", .integer dpi), ("dots", .integer n)]) []

def answerTemplates (data : Storage.Tree) : Answer :=
  .silent (.ok (.object
    [("templates", nameList (Template.list data Storage.templatesDir))]))

def templateFile (name : String) : String :=
  if Template.isTemplateName name then name else name ++ String.ofList Template.templateSuffix

/-- The body of a request as a context; one that counts as false is an empty context. -/
def contextOf? (v : Value) : Option Template.Context :=
  match v with
  | .object fields => some fields
  | v => if v.truthy then none else some []

def answerTemplate (p : Platform) (config : Config) (data : Storage.Tree) (name : String)
    (body : Value) : Answer :=
  match contextOf? body with
  | none => .silent (.refusal 400 "Contexto deve ser um objeto")
  | some context =>
    let file := templateFile name
    match p.render data Storage.templatesDir file config context with
    | .error .notFound => .silent (.refusal 404 "Template não encontrado")
    | .error e =>
      .failed "Erro ao renderizar etiqueta" e.message e.trace "Erro render template"
        [("template", .text file)]
    | .ok s =>
      .document s
        [{ report := .audit, message := "render_template"
           extras := [("template", .text file), ("length", .integer s.length)] }]

/-- An answer to what the body of a request spells, if it can be read. -/
def withBody (p : Platform) (r : Request) (answer : Value → Answer) : Answer :=
  match r.json? p.levels with
  | some body => answer body
  | none => .crashed "the body is nested too deeply" []

/-- The answer of a route to the methods that ask for its content. -/
def answerRoute (p : Platform) (config : Config) (data : Storage.Tree) (r : Request) :
    Route → Answer
  | .sample => answerSample config r
  | .render => withBody p r (answerRender config)
  | .operations => answerOperations
  | .dots => answerDots config r
  | .templates => answerTemplates data
  | .template name => withBody p r (answerTemplate p config data name)
  | .asset => .silent { status := 404 }

/-- A question about the methods of a route has no content, and neither has one about headers. -/
def answerMatched (p : Platform) (config : Config) (data : Storage.Tree) (r : Request)
    (route : Route) : Answer :=
  if r.verb = "OPTIONS" then .silent { status := if route.isQuery then 200 else 204 }
  else
    let answer := answerRoute p config data r route
    if r.wantsContent then answer
    else { answer with response := { answer.response with content := .page } }

def answer (p : Platform) (config : Config) (data : Storage.Tree) (r : Request) : Answer :=
  match resolve r.path r.verb with
  | .route route =>
    let answer := answerMatched p config data r route
    { answer with response := { answer.response with shared := route.isShared } }
  | .moved => .silent { status := 308 }
  | .notFound => .silent { status := 404 }
  | .notAllowed => .silent { status := 405 }

/-- What the answers of a service hang on. -/
structure Site where
  platform : Platform
  config : Config
  data : Storage.Tree

def Site.answer (site : Site) (r : Request) : Answer :=
  Http.answer site.platform site.config site.data r

structure Service extends Site where
  journal : Log.Journal

namespace Service

/-- A service on a data directory, which is set up together with the journal. -/
def start (platform : Platform) (config : Config) (data : Storage.Tree) (journal : Log.Journal) :
    Except Storage.TreeError Service :=
  match Storage.setUp (some Template.packagedTree) data with
  | (_, .error e) => .error e
  | (data, .ok ()) =>
    .ok { platform, config, data, journal := journal.setUp false Log.Journal.defaultKept }

/-- What the journal is told about every request. -/
def requestFields (r : Request) : Fields :=
  [("client_ip", .text "127.0.0.1"), ("method", .text r.verb), ("path", .text r.path)]

/-- Fields of the request do not take the place of what is noted. -/
def noteFields (note : Note) (r : Request) : Fields :=
  note.extras ++ (requestFields r).filter fun e => !note.extras.any (·.1 == e.1)

def record (r : Request) (j : Log.Journal) (note : Note) : Log.Journal :=
  match j.report note.report (.text note.message) (noteFields note r) note.cause with
  | .ok next => next
  | .error _ => j

def handle (s : Service) (r : Request) : Service × Response :=
  let a := s.answer r
  ({ s with journal := a.notes.foldl (record r) s.journal }, a.response)

/-- Some days pass without a request. -/
def wait (s : Service) (days : Nat) : Service :=
  { s with journal := s.journal.wait days }

/-- The responses to requests in order. -/
def handleAll (s : Service) : List Arrival → Service × List Response
  | [] => (s, [])
  | a :: rest =>
    let (s, response) := (s.wait a.days).handle a.request
    let (s, others) := handleAll s rest
    (s, response :: others)

end Service

end ThermalLabel.Http

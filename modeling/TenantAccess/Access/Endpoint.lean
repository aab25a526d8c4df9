import TenantAccess.Access.Review
import TenantAccess.Access.Target
import TenantAccess.Json.Reader
import TenantAccess.Text.Character

/-!
# Reviews over HTTP

A review is posted to the platform as a document, and its answer is read from the response.  Only
a successful response with a readable body counts as an answer.
-/

namespace TenantAccess

structure ReviewEndpoint where
  url : String
  token? : Option String := none

namespace ReviewEndpoint

def resourcePath : String := "/apis/authorization.openshift.io/v1/resourceaccessreviews"

/-- The endpoint of a server, whose address may end in slashes. -/
def ofServer (address : String) (token? : Option String) : ReviewEndpoint where
  url := String.ofList (address.toList.reverse.dropWhile (· = '/')).reverse ++ resourcePath
  token?

/-- What a request to the endpoint names as its target; none if there is no such server. -/
def target? (e : ReviewEndpoint) : Option String :=
  match e.url.splitOn "://" with
  | _ :: rest => (Target.ofAddress? ("://".intercalate rest).toList).map String.ofList
  | [] => none

/-- The header that authorizes a request, without the blanks around it. -/
def authorization? (e : ReviewEndpoint) : Option String :=
  e.token?.map fun t ↦ trim ("Bearer " ++ t)

/-- Whether a header can hold the token: no control character but a tab is in it. -/
def canAuthorize (e : ReviewEndpoint) : Bool :=
  e.token?.all fun t ↦ t.toList.all fun c ↦ (0x20 ≤ c.toNat && c.toNat ≠ 0x7F) || c = '\t'

end ReviewEndpoint

/-- The document that asks for a review. -/
def ReviewAction.question (a : ReviewAction) : Json :=
  .obj ([("kind", .str "ResourceAccessReview"),
      ("apiVersion", .str "authorization.openshift.io/v1"), ("verb", .str a.verb),
      ("resource", .str a.resource), ("resourceAPIGroup", .str a.group),
      ("resourceAPIVersion", .str a.version)] ++
    Json.optionalMember "namespace" .str a.ns?)

/-! ## Responses -/

structure HttpResponse where
  status : Nat
  body : String

namespace HttpResponse

/-- The standard phrases of status codes. -/
def reasons : List (Nat × String) :=
  [(100, "Continue"), (101, "Switching Protocols"), (102, "Processing"), (200, "OK"),
    (201, "Created"), (202, "Accepted"), (203, "Non Authoritative Information"),
    (204, "No Content"), (205, "Reset Content"), (206, "Partial Content"), (207, "Multi-Status"),
    (208, "Already Reported"), (226, "IM Used"), (300, "Multiple Choices"),
    (301, "Moved Permanently"), (302, "Found"), (303, "See Other"), (304, "Not Modified"),
    (305, "Use Proxy"), (307, "Temporary Redirect"), (308, "Permanent Redirect"),
    (400, "Bad Request"), (401, "Unauthorized"), (402, "Payment Required"), (403, "Forbidden"),
    (404, "Not Found"), (405, "Method Not Allowed"), (406, "Not Acceptable"),
    (407, "Proxy Authentication Required"), (408, "Request Timeout"), (409, "Conflict"),
    (410, "Gone"), (411, "Length Required"), (412, "Precondition Failed"),
    (413, "Payload Too Large"), (414, "URI Too Long"), (415, "Unsupported Media Type"),
    (416, "Range Not Satisfiable"), (417, "Expectation Failed"), (418, "I'm a teapot"),
    (421, "Misdirected Request"), (422, "Unprocessable Entity"), (423, "Locked"),
    (424, "Failed Dependency"), (426, "Upgrade Required"),
    (428, "Precondition Required"), (429, "Too Many Requests"),
    (431, "Request Header Fields Too Large"), (451, "Unavailable For Legal Reasons"),
    (500, "Internal Server Error"), (501, "Not Implemented"), (502, "Bad Gateway"),
    (503, "Service Unavailable"), (504, "Gateway Timeout"), (505, "HTTP Version Not Supported"),
    (506, "Variant Also Negotiates"), (507, "Insufficient Storage"), (508, "Loop Detected"),
    (510, "Not Extended"), (511, "Network Authentication Required")]

def statusText (status : Nat) : String :=
  toString status ++ " " ++ (reasons.lookup status).getD "<unknown status code>"

def isSuccess (r : HttpResponse) : Bool := 200 ≤ r.status && r.status < 300

/-- Whether the response counts as one: its code has three digits, and interim codes are passed
over. -/
def isFinal (r : HttpResponse) : Bool := 200 ≤ r.status && r.status < 1000 || r.status = 101

/-- What arrives of the body: some codes allow none. -/
def content (r : HttpResponse) : String := if r.status ∈ [101, 204, 304] then "" else r.body

/-- The body as a text, without the mark of the byte order that it may start with. -/
def text (r : HttpResponse) : String :=
  match r.content.toList with
  | '\uFEFF' :: rest => String.ofList rest
  | _ => r.content

/-- The principals that a response names, each member at most once.  An answer that is only partial
counts. -/
def decodeAnswer (d : Dialect δ) (j : δ) : Option AccessSet := do
  let names := ["users", "groups", "evaluationError"]
  let fields ← d.record names j
  if names.any fun name ↦ 1 < fields.countP (·.1 = name) then none
  let users ← d.optional fields "users" (d.list d.text)
  let groups ← d.optional fields "groups" (d.list d.text)
  let _ ← d.optional fields "evaluationError" d.text
  some (.new (users.getD []) (groups.getD []))

/-- The answer to the review of `action`. -/
def answer (action : ReviewAction) (r : HttpResponse) : Except Error AccessSet :=
  if !r.isFinal then .error .reviewRequest
  else if r.isSuccess then
    match (Json.parsePartly r.content).bind (decodeAnswer Json.strict) with
    | some access => .ok access
    | none => .error .reviewRequest
  else
    .error ((Error.accessReview ("Access review for " ++ action.text ++ " returned " ++
      statusText r.status)).withInternal r.text)

end HttpResponse

/-! ## Requests -/

structure ReviewRequest where
  target : String
  authorization? : Option String
  question : Json

namespace ReviewEndpoint

/-- The request that asks for a review; none if it cannot be sent. -/
def request? (e : ReviewEndpoint) (action : ReviewAction) : Option ReviewRequest := do
  let target ← e.target?
  if e.canAuthorize then some ⟨target, e.authorization?, action.question⟩ else none

/-- The outcome of a review if the platform responds with `r`. -/
def review (e : ReviewEndpoint) (r : HttpResponse) (action : ReviewAction) :
    Except Error AccessSet :=
  if (e.request? action).isSome then r.answer action else .error .reviewRequest

end ReviewEndpoint

/-- A reviewer that nobody answers. -/
def unreachable : Reviewer := fun _ ↦ .error .reviewRequest

end TenantAccess

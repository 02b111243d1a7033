import SpoolTag.Http.MediaType

/-!
# Requests and responses

What a client asks of the web server and what it is answered, as far as the server looks at the one
and decides on the other.
-/

namespace SpoolTag.Http

/-- What a client asks for. The names of headers are in small letters. -/
structure Request where
  method : String
  uri : String
  headers : List (String × String) := []
  body : List UInt8 := []
  deriving DecidableEq, Repr

/-- The path within the target of a request: what stands before a query or fragment, and after the
authority where there is one. -/
def pathOf : List Char → List Char
  | '/' :: rest => '/' :: rest.takeWhile fun c => c != '?' && c != '#'
  | ['*'] => ['*']
  | text => afterAuthority text
where
  /-- The path of a target that starts with a scheme and an authority. -/
  afterAuthority : List Char → List Char
    | [] => []
    | ':' :: '/' :: '/' :: rest =>
      match rest.dropWhile fun c => c != '/' && c != '?' && c != '#' with
      | '/' :: path => '/' :: path.takeWhile fun c => c != '?' && c != '#'
      | _ => ['/']
    | _ :: rest => afterAuthority rest

namespace Request

/-- The path that a request is for. -/
def path (r : Request) : String := String.ofList (pathOf r.uri.toList)

def header? (r : Request) (name : String) : Option String :=
  (r.headers.find? (·.1 == name)).map (·.2)

/-- Whether the body is declared to be a JSON document. -/
def hasJson (r : Request) : Bool :=
  match r.header? "content-type" with
  | none => false
  | some text => ((MediaType.ofText? text.toList).map MediaType.isJson).getD false

end Request

/-- What a client is answered. Any origin may see it. -/
structure Response where
  status : Nat
  contentType : Option String := none
  /-- The methods that the path has. -/
  allow : Option String := none
  /-- Whether any origin may use any method and header. -/
  openToAll : Bool := false
  body : String := ""
  deriving DecidableEq, Repr

namespace Response

/-- The headers of a response, in the order of their names. -/
def headers (r : Response) : List (String × String) :=
  (if r.openToAll then
      [("access-control-allow-headers", "*"), ("access-control-allow-methods", "*")]
    else []) ++
    [("access-control-allow-origin", "*")] ++
    r.allow.toList.map (fun methods => ("allow", methods)) ++
    r.contentType.toList.map (fun type => ("content-type", type))

end Response

end SpoolTag.Http

import Zasper.Paths

/-!
# Requests and routes

What a request consists of, and how a router finds the route for it: the routes are
tried in the order in which they were registered, and a route fits when its template
fits the whole path and its methods have the request's. A path that is not in its
clean form is redirected to it first.
-/
namespace Zasper.Http
open Zasper.Strings Zasper.Paths
set_option linter.unusedSimpArgs false
universe u

structure Request where
  method : String
  /-- The decoded path. -/
  path : String
  query : List (String × String)
  headers : List (String × String)
  body : List UInt8
deriving DecidableEq

/-- The first value with the name, empty where there is none. -/
def valueOf (pairs : List (String × String)) (name : String) : String :=
  ((pairs.find? (fun p => p.1 = name)).map Prod.snd).getD ""

def Request.header (r : Request) (name : String) : String := valueOf r.headers name
def Request.queryValue (r : Request) (name : String) : String := valueOf r.query name

/-- A piece of a template: a text, or a variable in braces. -/
inductive Segment where
  | text (piece : List Char)
  | var (name : String)
deriving DecidableEq

def pieceSegment (piece : List Char) : Segment :=
  match piece with
  | '{' :: rest => if rest.getLast? = some '}' then .var (String.ofList rest.dropLast) else .text piece
  | _ => .text piece

abbrev Vars := List (String × String)

/-- The values of the variables where the pieces of a path fit the template; the value
    of a variable is not empty. -/
def matchSegments : List Segment → List (List Char) → Option Vars
  | [], [] => some []
  | .text piece :: template, p :: path => if p = piece then matchSegments template path else none
  | .var name :: template, p :: path =>
    if p = [] then none else (matchSegments template path).map (fun vars => (name,String.ofList p) :: vars)
  | _, _ => none

inductive Pattern where
  | template (path : String)
  | prefixOf (path : String)
deriving DecidableEq

def Pattern.matches? : Pattern → String → Option Vars
  | .template t, path => matchSegments ((cutAt '/' t.toList).map pieceSegment) (cutAt '/' path.toList)
  | .prefixOf start, path => if hasPrefix path start then some [] else none

structure Route (Handler : Type u) where
  pattern : Pattern
  /-- Every method where it is empty. -/
  methods : List String
  handler : Handler

variable {Handler : Type u}

def Route.matches? (route : Route Handler) (r : Request) : Option (Handler × Vars) :=
  if route.methods = [] ∨ r.method ∈ route.methods then
    (route.pattern.matches? r.path).map (fun vars => (route.handler,vars))
  else none

/-- The handler of the first route that fits. -/
def dispatch (routes : List (Route Handler)) (r : Request) : Option (Handler × Vars) :=
  routes.findSome? (fun route => route.matches? r)

/-- The clean form of a request's path: a slash at its end stays. -/
def cleanPath (path : String) : String :=
  if path = "" then "/"
  else
    let rooted := if hasPrefix path "/" then path else "/" ++ path
    let cleaned := clean rooted
    if hasSuffix path "/" && cleaned ≠ "/" then cleaned ++ "/" else cleaned

example : dispatch [⟨.template "/kernels/{kernelId}/stop",["POST"],()⟩] ⟨"POST","/kernels/k1/stop",[],[],[]⟩ =
    some ((),[("kernelId","k1")]) := by decide

end Zasper.Http

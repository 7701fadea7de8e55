import RestQuery.Text.Scan

/-!
# Methods and tokens

The methods that ask for an operation on data; any other method is kept by its name.
-/

namespace RestQuery.Http

/-- Whether a character may stand in a token, such as a method or the name of a header. -/
def isTokenChar (c : Char) : Bool := c.isAlphanum || "!#$%&'*+-.^_`|~".toList.contains c

/-- Whether a text is a token. -/
def isToken (s : List Char) : Bool := !s.isEmpty && s.all isTokenChar

/-- The method of a request. -/
inductive Method where
  | get | head | post | patch | put | delete
  /-- A method that is none of the others. -/
  | other (name : String)
  deriving DecidableEq, Repr, Inhabited

/-- The name of a method. -/
def Method.name : Method → String
  | .get => "GET"
  | .head => "HEAD"
  | .post => "POST"
  | .patch => "PATCH"
  | .put => "PUT"
  | .delete => "DELETE"
  | .other name => name

/-- The method with a name. Names differ if their letters do, in case too. -/
def Method.ofName (name : String) : Method :=
  match name with
  | "GET" => .get
  | "HEAD" => .head
  | "POST" => .post
  | "PATCH" => .patch
  | "PUT" => .put
  | "DELETE" => .delete
  | name => .other name

/-- Whether a method only reads. -/
def Method.isRead (m : Method) : Bool := m = .get || m = .head

end RestQuery.Http

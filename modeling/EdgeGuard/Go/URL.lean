import EdgeGuard.Go.Strings

/-! The parts of a URL that Go programs read through `net/url`. The parser
itself is a parameter wherever a URL is validated; `parseAbsolute` is a concrete
instance on plain absolute URLs. -/
namespace EdgeGuard.Go

structure URL where
  scheme : Str
  host : Str
  path : Str
  deriving DecidableEq, Repr

def isLower (c : UInt8) : Bool := 97 ≤ c && c ≤ 122

def isDigit (c : UInt8) : Bool := 48 ≤ c && c ≤ 57

/-- Host characters that `net/url` keeps as they are and that open no port,
user information or IP literal. -/
def plainHost (c : UInt8) : Bool := isLower c || isDigit c || c == 45 || c == 46

def plainPath (c : UInt8) : Bool := plainHost c || c == 47

/-- `url.Parse` on `scheme://host/path` with a lower-case scheme and plain host
and path characters; a text of any other shape is not read. -/
def parseAbsolute (s : Str) : Option URL :=
  let scheme := s.takeWhile isLower
  let rest := s.dropWhile isLower
  if scheme ≠ [] ∧ hasPrefix rest (lit "://") then
    let authority := rest.drop 3
    let host := authority.takeWhile (· != 47)
    let path := authority.dropWhile (· != 47)
    if host.all plainHost ∧ path.all plainPath then some ⟨scheme, host, path⟩ else none
  else none

def parsePlain (s : Str) : Except String URL :=
  match parseAbsolute s with
  | some url => .ok url
  | none => .error "not a plain absolute url"

end EdgeGuard.Go

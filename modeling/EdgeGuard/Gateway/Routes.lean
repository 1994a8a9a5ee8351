import EdgeGuard.Go.Strings
import EdgeGuard.Go.Time
import EdgeGuard.Go.URL

/-! Gateway routes: prefix matching, the path sent upstream and the selection of
the longest matching prefix. -/
namespace EdgeGuard.Gateway
open Go

structure RateLimitPolicy where
  enabled : Bool
  limit : Int
  window : Duration
  deriving DecidableEq, Repr

structure Route where
  projectID : Str
  name : Str
  pathPrefix : Str
  upstreamURL : Str
  stripPrefix : Bool
  timeout : Duration
  authRequired : Bool
  rateLimit : RateLimitPolicy
  deriving DecidableEq, Repr

namespace Route

def matchesPath (r : Route) (path : Str) : Bool :=
  if r.pathPrefix = lit "/" then true
  else
    let start := trimRight r.pathPrefix 47
    path == start || hasPrefix path (start ++ lit "/")

def upstreamPath (r : Route) (originalPath : Str) : Str :=
  if r.stripPrefix = false then originalPath
  else
    let path := trimPrefix originalPath (trimRight r.pathPrefix 47)
    if path = [] then lit "/"
    else if hasPrefix path (lit "/") = false then lit "/" ++ path
    else path

end Route

def joinPaths (a b : Str) : Str :=
  if a = [] then b
  else if b = [] then a
  else
    let aSlash := hasSuffix a (lit "/")
    let bSlash := hasPrefix b (lit "/")
    if aSlash && bSlash then a ++ b.drop 1
    else if !aSlash && !bSlash then a ++ lit "/" ++ b
    else a ++ b

/-- The URL that the proxy's `Director` sets on the request to the parsed
upstream. -/
def directedURL (target : URL) (route : Route) (originalPath : Str) : URL where
  scheme := target.scheme
  host := target.host
  path := joinPaths target.path (route.upstreamPath originalPath)

/-- `matchedLen` in `ResolveRoute`: minus one stands for no match. -/
def matchedLen : Option Route → Int
  | none => -1
  | some route => route.pathPrefix.length

/-- The loop of `ResolveRoute` over the remaining routes. -/
def resolveLoop (path : Str) : List Route → Option Route → Option Route
  | [], matched => matched
  | route :: rest, matched =>
    if route.matchesPath path = true ∧ matchedLen matched < route.pathPrefix.length then
      resolveLoop path rest (some route)
    else resolveLoop path rest matched

/-- `ResolveRoute` on the current snapshot; `none` is `ErrRouteNotFound`. -/
def resolveRoute (routes : List Route) (path : Str) : Option Route := resolveLoop path routes none

end EdgeGuard.Gateway

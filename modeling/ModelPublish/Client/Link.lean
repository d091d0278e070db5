import ModelPublish.Client.Uri
import ModelPublish.Client.WebService

/-!
# Load3DScanFromUrl

The requests that the viewer makes of a link, and what the server reads in them.
-/

namespace ModelPublish.Client
open Server Rest

/-- `CString::Replace`, with as many characters of a match left to pass over. -/
def replace (pszOld pszNew : CString) : Nat → CString → CString
  | _, [] => []
  | skip + 1, _ :: s => replace pszOld pszNew skip s
  | 0, c :: s =>
    if pszOld.isPrefixOf (c :: s) then pszNew ++ replace pszOld pszNew (pszOld.length - 1) s
    else c :: replace pszOld pszNew 0 s

inductive Api where
  | getInfo
  | get
  | getAd
  deriving DecidableEq

namespace Api

/-- `MODEL_API_GET_INFO`, `MODEL_API_GET` and `MODEL_API_GET_AD`. -/
def name : Api → WString
  | getInfo => wide "getinfo"
  | get => wide "get"
  | getAd => wide "getad"

/-- What the server does with the parameters. -/
def program (host : Host) (env : Env) (params : Params) : Api → Program Reply
  | getInfo => onGetInfo host env params .initial
  | get => onGetModel host env params .initial
  | getAd => onGetAd host env params .initial

end Api

def servicePath : WString := wide "/3dscan/"

/-- What the cache has of a subscription. -/
structure Cached where
  model : Bool
  ad : Bool

def downloads (cached : Cached) : List Api :=
  (if cached.model then [] else [.getInfo, .get]) ++ if cached.ad then [] else [.getAd]

section Requests
variable (scanString : WString → Int)

def serviceUrl (builder : Components) (subsid : WString) (api : Api) : Option WString := do
  let builder_mdl : Components :=
    { scheme := wide "http", host := builder.host, port := builder.port, path := servicePath }
  let builder_mdl ← (builder_mdl.appendPath api.name).appendQueryPair (wide "subsid") subsid
  let builder_mdl ← builder_mdl.appendQueryPair (wide "magic") modelApiMagic
  let url ← builder_mdl.toUri scanString
  some url.text

/-- The link with the scheme of the service. -/
def httpLink (strUrl : CString) : CString := replace (ascii "3dscan://") (ascii "http://") 0 strUrl

/-- The URLs that are given to the downloads, unless it ends in an exception or in what is undefined. -/
def load3DScanFromUrl (page : CodePage) (cached : WString → Cached) (strUrl : CString) :
    Option (List (Api × WString)) := do
  let szUrl ← (wideBuffer page (httpLink strUrl)).toOption
  let original ← ofString scanString szUrl
  let subsid := ((splitQuery original.query).lookup (wide "subsid")).getD []
  (downloads (cached subsid)).mapM fun api => (serviceUrl scanString original subsid api).map fun url => (api, url)

/-- What `http_client ( inuri )` sends for a request whose URI is again `inuri`. -/
def requestLine (pszUrl : WString) : Option WString := do
  let inuri ← ofString scanString pszUrl
  let m_uri ← if inuri.scheme = [] then Components.toUri scanString { inuri with scheme := wide "http" }
    else some inuri
  if (m_uri.scheme ≠ wide "http" ∧ m_uri.scheme ≠ wide "https") ∨ m_uri.host = [] then none
  else
    let relative ← inuri.resource scanString
    let full ← (m_uri.append relative).toUri scanString
    let resource ← full.resource scanString
    some resource.text

/-- `relative_uri` of a request to the listener. -/
def relativeUri (listener_path raw : WString) : Option Components := do
  let m_uri ← ofString scanString raw
  let resource ← m_uri.resource scanString
  let path ← decode resource.text
  let path := if path = [] then wide "/" else path
  let listener ← decode listener_path
  if listener.isPrefixOf path then
    let encoded ← encodeUri (path.drop listener.length)
    ofString scanString encoded
  else none

/-- The request that `HandleGet` gets for a URL. -/
def received (pszUrl : WString) : Option HttpRequest := do
  let raw ← requestLine scanString pszUrl
  let uri ← relativeUri scanString servicePath raw
  some ⟨uri.path, uri.query, .unreadable⟩

end Requests

end ModelPublish.Client

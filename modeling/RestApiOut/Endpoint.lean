import RestApiOut.Sample
import RestApiOut.Library.Uri

/-!
# The resource an endpoint names

The JSON handler appends the endpoint to the text of the server's URL and has `QUrl` parse the
result; the binary handler hands the endpoint to `setPath`.  Parsing ends the path at the first
`?` or `#` and reads escapes, `setPath` takes its whole argument as the path.
`same_resource_iff` says for which endpoints the two handlers address the same resource.
-/

namespace RestApiOut

variable {P : Platform} {ι : Type}

/-- Where on its server a URL points: its components after the host, as the octets they stand
for. -/
structure Resource where
  path : Bytes
  query : Option Bytes
  fragment : Option Bytes
deriving DecidableEq

/-- The resource of a reference that a tolerant parser has read. -/
def Resource.ofReference (lone : Uri.LonePercent) (r : Uri.Reference) : Resource where
  path := Uri.decode lone r.path
  query := r.query.map (Uri.decode lone)
  fragment := r.fragment.map (Uri.decode lone)

/-- A URL of the form `scheme://host`, perhaps with a port, and no path, query or fragment. -/
structure SchemeAndHost (resource : P.Url → Resource) (url : P.Url) : Prop where
  origin : ∃ o : Uri.Origin, P.urlString url = String.ofList o.text
  query : (resource url).query = none
  fragment : (resource url).fragment = none

/-- The endpoint begins with a slash. -/
def Rooted (endpoint : String) : Prop := ∃ rest, endpoint = String.ofList ('/' :: rest)

/-- What is relied on of `QUrl`: its constructor, in tolerant mode, cuts a text as RFC 3986 does
and reads the escapes in each component; `setPath`, in decoded mode, takes its whole argument as
the path and leaves the other components alone. -/
structure TolerantUrls (resource : P.Url → Resource) (lone : Uri.LonePercent) : Prop where
  parse : ∀ base endpoint, SchemeAndHost resource base → Rooted endpoint →
    resource (P.parseUrl (P.urlString base ++ endpoint)) =
      .ofReference lone (Uri.parse (P.urlString base ++ endpoint).toList)
  setPath : ∀ base endpoint, SchemeAndHost resource base → Rooted endpoint →
    resource (P.setPath base endpoint) =
      ⟨Text.utf8 endpoint.toList, (resource base).query, (resource base).fragment⟩

/-- The endpoint is a path as it stands: it holds no `?`, no `#` and no `%` that is read as the
start of an escape. -/
structure PlainPath (lone : Uri.LonePercent) (endpoint : String) : Prop where
  query : '?' ∉ endpoint.toList
  fragment : '#' ∉ endpoint.toList
  percent : Uri.Literal lone endpoint.toList

section Urls

variable {resource : P.Url → Resource} {lone : Uri.LonePercent} {base : P.Url} {endpoint : String}

theorem InesonicRestHandler.resource_url (tolerant : TolerantUrls resource lone)
    (documented : SchemeAndHost resource base) (rooted : Rooted endpoint) :
    resource (url base endpoint) =
      { path := Uri.decode lone (Uri.cut '?' (Uri.cut '#' endpoint.toList).1).1
        query := (Uri.cut '?' (Uri.cut '#' endpoint.toList).1).2.map (Uri.decode lone)
        fragment := (Uri.cut '#' endpoint.toList).2.map (Uri.decode lone) } := by
  rw [url, tolerant.parse base endpoint documented rooted]
  obtain ⟨o, origin⟩ := documented.origin
  obtain ⟨rest, rfl⟩ := rooted
  have parts := o.parse_text rest
  rw [origin, ← String.ofList_append, String.toList_ofList, String.toList_ofList, parts]
  rfl

theorem InesonicBinaryRestHandler.resource_url (tolerant : TolerantUrls resource lone)
    (documented : SchemeAndHost resource base) (rooted : Rooted endpoint) :
    resource (url base endpoint) =
      { path := Text.utf8 endpoint.toList, query := none, fragment := none } := by
  rw [url, tolerant.setPath base endpoint documented rooted, documented.query, documented.fragment]

theorem resource_url_iff (tolerant : TolerantUrls resource lone)
    (documented : SchemeAndHost resource base) (rooted : Rooted endpoint) :
    resource (InesonicRestHandler.url base endpoint) =
        resource (InesonicBinaryRestHandler.url base endpoint) ↔
      PlainPath lone endpoint := by
  rw [InesonicRestHandler.resource_url tolerant documented rooted,
    InesonicBinaryRestHandler.resource_url tolerant documented rooted, Resource.mk.injEq,
    Option.map_eq_none_iff, Option.map_eq_none_iff]
  constructor
  · rintro ⟨path, uncutQuery, uncutFragment⟩
    have fragment := Uri.cut_eq_none_iff.mp uncutFragment
    rw [Uri.cut_of_notMem fragment] at path uncutQuery
    have query := Uri.cut_eq_none_iff.mp uncutQuery
    rw [Uri.cut_of_notMem query] at path
    exact ⟨query, fragment, Uri.decode_eq_utf8_iff.mp path⟩
  · intro plain
    rw [Uri.cut_of_notMem plain.fragment, Uri.cut_of_notMem plain.query]
    exact ⟨Uri.decode_eq_utf8_iff.mpr plain.percent, rfl, rfl⟩

end Urls

/-! ## A platform with structured URLs -/

/-- The sample platform with a `QUrl` that holds the five components as they are written. -/
def Platform.structured : Platform :=
  { Platform.sample with
    Url := Uri.Reference
    emptyUrl := ⟨none, none, [], none, none⟩
    parseUrl := fun text => Uri.parse text.toList
    urlString := fun url => String.ofList (Uri.write url)
    setPath := fun url path => { url with path := Uri.percentEncode path.toList } }

namespace Sample

/-- The resource of a URL of `Platform.structured`. -/
def resource (lone : Uri.LonePercent) : Platform.structured.Url → Resource :=
  Resource.ofReference lone

theorem structured_tolerant (lone : Uri.LonePercent) : TolerantUrls (resource lone) lone where
  parse _ _ _ _ := rfl
  setPath base endpoint _ _ := by
    have path := Uri.decode_percentEncode lone endpoint.toList
    rw [← path]
    rfl

/-- `https://api.example.com:8443`. -/
def server : Uri.Reference :=
  ⟨some "https".toList, some "api.example.com:8443".toList, [], none, none⟩

theorem server_documented (lone : Uri.LonePercent) : SchemeAndHost (resource lone) server where
  origin := ⟨⟨"https".toList, "api.example.com:8443".toList, by decide, by simp, by simp⟩,
    by decide⟩
  query := rfl
  fragment := rfl

/-- A JSON handler, a binary handler and their server. -/
def structuredWorld : World Platform.structured Bool :=
  .constructed server Server.defaultTimeDeltaSlug (fun h => if h then .json else .binary) 0

def document : Platform.structured.Document := timeDeltaAnswer 0

end Sample

namespace World

variable [DecidableEq ι]

/-- Whatever `post` goes on to do, the handler keeps the URL it has built. -/
theorem currentUrl_postWith (w : World P ι) (h : ι) (url : P.Url) (payload : Bytes) :
    ((w.postWith h url payload).handler h).currentUrl = url := by
  unfold postWith
  dsimp only
  split
  · simp [setHandler, block]
  · rw [timestampUpdated_eq]
    simp [setHandler, withCore]
  · simp [setHandler, withCore]

theorem currentUrl_post_json (w : World P ι) (h : ι) (endpoint : String)
    (jsonData : P.Document) :
    ((InesonicRestHandler.post w h endpoint jsonData).handler h).currentUrl =
      InesonicRestHandler.url w.server.currentSchemeAndHost endpoint :=
  currentUrl_postWith w h _ _

theorem currentUrl_post_binary (w : World P ι) (h : ι) (endpoint : String)
    (binaryPayload : Bytes) :
    ((InesonicBinaryRestHandler.post w h endpoint binaryPayload).handler h).currentUrl =
      InesonicBinaryRestHandler.url w.server.currentSchemeAndHost endpoint :=
  currentUrl_postWith w h _ _

/-- **One endpoint, one resource, exactly for plain paths.**  Posting to the same endpoint of the
same server, a JSON and a binary handler build URLs with the same path, query and fragment if and
only if the endpoint is a path as it stands. -/
theorem same_resource_iff {resource : P.Url → Resource} {lone : Uri.LonePercent}
    (tolerant : TolerantUrls resource lone) {w w' : World P ι}
    (documented : SchemeAndHost resource w.server.currentSchemeAndHost)
    (server : w'.server.currentSchemeAndHost = w.server.currentSchemeAndHost)
    {endpoint : String} (rooted : Rooted endpoint) (h h' : ι) (jsonData : P.Document)
    (binaryPayload : Bytes) :
    resource ((InesonicRestHandler.post w h endpoint jsonData).handler h).currentUrl =
        resource ((InesonicBinaryRestHandler.post w' h' endpoint binaryPayload).handler
          h').currentUrl ↔
      PlainPath lone endpoint := by
  rw [currentUrl_post_json, currentUrl_post_binary, server]
  exact resource_url_iff tolerant documented rooted

/-- A JSON and a binary post to one endpoint without a `?`, a `#` or an escape.  It has a doubled
slash and a `%` on its own. -/
theorem same_resource_of_plain_endpoint :
    Sample.resource .itself ((InesonicRestHandler.post Sample.structuredWorld true "/v1//90%"
          Sample.document).handler true).currentUrl =
        Sample.resource .itself ((InesonicBinaryRestHandler.post Sample.structuredWorld false
          "/v1//90%" []).handler false).currentUrl := by
  have rooted : Rooted "/v1//90%" := ⟨"v1//90%".toList, by decide⟩
  have plain : PlainPath .itself "/v1//90%" := ⟨by decide, by decide, .inl (by decide)⟩
  exact (same_resource_iff (Sample.structured_tolerant .itself) (Sample.server_documented .itself)
    rfl rooted true false Sample.document []).mpr plain

/-- Two posts to the endpoint of a list with a limit.  The JSON handler asks for the list, the
binary handler for a resource that has the question mark in its name. -/
theorem query_endpoint_names_two_resources :
    (∀ lone, TolerantUrls (Sample.resource lone) lone ∧
      SchemeAndHost (Sample.resource lone)
        Sample.structuredWorld.server.currentSchemeAndHost) ∧
      Rooted "/v1/list?limit=1" ∧
      ∀ lone, Sample.resource lone ((InesonicRestHandler.post Sample.structuredWorld true
            "/v1/list?limit=1" Sample.document).handler true).currentUrl ≠
          Sample.resource lone ((InesonicBinaryRestHandler.post Sample.structuredWorld false
            "/v1/list?limit=1" []).handler false).currentUrl := by
  have rooted : Rooted "/v1/list?limit=1" := ⟨"v1/list?limit=1".toList, by decide⟩
  refine ⟨fun lone => ⟨Sample.structured_tolerant lone, Sample.server_documented lone⟩, rooted,
    fun lone same => ?_⟩
  rw [currentUrl_post_json, currentUrl_post_binary] at same
  have plain := (resource_url_iff (Sample.structured_tolerant lone)
    (Sample.server_documented lone) rooted).mp same
  exact plain.query (by decide)

end World

end RestApiOut

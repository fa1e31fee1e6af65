import LensoWeb.Ingress.Transport

/-!
# The length of a request head

The limit on request heads is checked against a length that is computed from the parts
of a request. It is the length of the head as HTTP/1 writes it, for every target but
one kind: behind a scheme a missing path is written as a slash, and a query that
follows it is counted without.
-/

namespace Ingress

open Foundation Http

/-! ### The canonical serialization -/

/-- `Display` for a `Uri`: scheme, authority, path and query. -/
def displayUri (uri : Uri) : Bytes :=
  uri.scheme.elim [] (fun scheme => scheme ++ ascii "://") ++ uri.authority.getD [] ++ uri.path ++
    uri.query.elim [] (fun query => ascii "?" ++ query)

/-- The protocol version on a request line. -/
def versionText : Version → Bytes
  | .http09 => ascii "HTTP/0.9"
  | .http10 => ascii "HTTP/1.0"
  | .http11 => ascii "HTTP/1.1"
  | .http2 => ascii "HTTP/2.0"
  | .http3 => ascii "HTTP/3.0"

/-- One header line. -/
def headerLine (field : HeaderName × HeaderValue) : Bytes :=
  field.1.text ++ ascii ": " ++ field.2.bytes ++ ascii "\r\n"

/-- A request head, as HTTP/1 writes it. -/
def requestHead {β : Type} (request : Request β) : Bytes :=
  request.method.token ++ ascii " " ++ displayUri request.uri ++ ascii " " ++
    versionText request.version ++ ascii "\r\n" ++ request.headers.toList.flatMap headerLine ++
    ascii "\r\n"

/-! ### The computed length -/

/-- A target in absolute form that has a query and no path. -/
def missesPath : Uri → Bool
  | .absoluteForm _ _ none (some _) => true
  | _ => false

/-- The computed length is exact, and one short where the slash is missing. -/
theorem serializedUriLen_add (uri : Uri) :
    serializedUriLen uri + (missesPath uri).toNat = (displayUri uri).length := by
  have separator : (ascii "://").length = 3 := by decide
  have slash : (ascii "/").length = 1 := by decide
  have mark : (ascii "?").length = 1 := by decide
  cases uri with
  | originForm path query =>
      cases query with
      | none =>
          simp [serializedUriLen, displayUri, missesPath, Uri.pathAndQuery, Uri.render, Uri.scheme,
            Uri.authority, Uri.path, Uri.query]
      | some query =>
          simp [serializedUriLen, displayUri, missesPath, Uri.pathAndQuery, Uri.render, Uri.scheme,
            Uri.authority, Uri.path, Uri.query, mark]
          omega
  | absoluteForm scheme authority path query =>
      cases path with
      | none =>
          cases query <;>
            · simp [serializedUriLen, displayUri, missesPath, Uri.pathAndQuery, Uri.render,
                Uri.scheme, Uri.authority, Uri.path, Uri.query, separator, slash, mark]
              omega
      | some path =>
          cases query <;>
            · simp [serializedUriLen, displayUri, missesPath, Uri.pathAndQuery, Uri.render,
                Uri.scheme, Uri.authority, Uri.path, Uri.query, separator, mark]
              omega
  | asteriskForm origin =>
      cases origin <;>
        · simp [serializedUriLen, displayUri, missesPath, Uri.pathAndQuery, Uri.scheme,
            Uri.authority, Uri.path, Uri.query, separator]
          try omega
  | authorityForm authority =>
      simp [serializedUriLen, displayUri, missesPath, Uri.pathAndQuery, Uri.scheme, Uri.authority,
        Uri.path, Uri.query]

theorem length_versionText (version : Version) :
    (versionText version).length = versionLen version := by
  cases version <;> rfl

theorem length_headerLine (field : HeaderName × HeaderValue) :
    (headerLine field).length = field.1.text.length + 2 + field.2.bytes.length + 2 := by
  have colon : (ascii ": ").length = 2 := by decide
  have ending : (ascii "\r\n").length = 2 := by decide
  rw [headerLine, List.length_append, List.length_append, List.length_append, colon, ending]

theorem canonicalRequestHeadLen_add {β : Type} (request : Request β) :
    canonicalRequestHeadLen request + (missesPath request.uri).toNat =
      (requestHead request).length := by
  have blank : (ascii " ").length = 1 := by decide
  have ending : (ascii "\r\n").length = 2 := by decide
  have lines : (request.headers.toList.flatMap headerLine).length =
      (request.headers.toList.map fun field =>
        field.1.text.length + 2 + field.2.bytes.length + 2).sum := by
    rw [List.length_flatMap, funext length_headerLine]
  simp only [requestHead, List.length_append, blank, ending, length_versionText, lines,
    ← serializedUriLen_add, canonicalRequestHeadLen]
  omega

/-- The computed lengths are those of the texts exactly where the target does not miss
its path. -/
theorem head_length_exact_iff {β : Type} (request : Request β) :
    (serializedUriLen request.uri = (displayUri request.uri).length ∧
      canonicalRequestHeadLen request = (requestHead request).length) ↔
      missesPath request.uri = false := by
  rw [← serializedUriLen_add, ← canonicalRequestHeadLen_add]
  cases missesPath request.uri <;> simp

/-- The target `http://host?x=1`. -/
def hostQuery : Uri :=
  .absoluteForm (ascii "http") (ascii "host") none (some ⟨ascii "x=1", by decide⟩)

def hostQueryRequest : Request Bytes := ⟨.get, hostQuery, .http11, ∅, []⟩

/-- `http://host?x=1` is displayed as `http://host/?x=1`, one byte longer than computed. -/
theorem head_length_short :
    displayUri hostQuery = ascii "http://host/?x=1" ∧ serializedUriLen hostQuery = 15 ∧
      requestHead hostQueryRequest = ascii "GET http://host/?x=1 HTTP/1.1\r\n\r\n" ∧
      canonicalRequestHeadLen hostQueryRequest = 32 ∧
      ¬ (serializedUriLen hostQueryRequest.uri = (displayUri hostQueryRequest.uri).length ∧
        canonicalRequestHeadLen hostQueryRequest = (requestHead hostQueryRequest).length) := by
  decide +kernel

end Ingress

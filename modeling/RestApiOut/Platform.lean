import Mathlib.Algebra.Order.Ring.Rat

/-!
# What the library takes from outside

`Platform` collects what the library calls and does not define: `QUrl`, `QJsonDocument`, the HMAC
and scrubbing routines of inecrypto, the content of memory `QByteArray::resize` leaves
uninitialised, and the clock.  The model is generic in it, so a result holds whatever these do; the
few results that need one of them to behave say so in a hypothesis.

The `k`-th reading of `QDateTime::currentSecsSinceEpoch` in a run is `clock k`: the clock may stand
still, jump or run backwards between any two readings.
-/

namespace RestApiOut

abbrev Bytes := List UInt8

/-- A `QJsonValue`.  The library never looks inside a nested array or object. -/
inductive JsonValue
  | null
  | bool (b : Bool)
  | double (v : ℚ)
  | string (s : String)
  | array
  | object
deriving DecidableEq

/-- A `QJsonObject`: members under distinct keys. -/
structure JsonObject where
  members : List (String × JsonValue)
  nodup : (members.map Prod.fst).Nodup
deriving DecidableEq

/-- `QJsonObject::size`. -/
def JsonObject.size (o : JsonObject) : Nat := o.members.length

/-- `QJsonObject::value`; a missing key gives `none`, Qt's undefined value. -/
def JsonObject.value (o : JsonObject) (key : String) : Option JsonValue :=
  o.members.lookup key

structure Platform where
  /-- `QUrl`. -/
  Url : Type
  /-- `QUrl()`. -/
  emptyUrl : Url
  /-- `QUrl(const QString&)`. -/
  parseUrl : String → Url
  /-- `QUrl::toString`. -/
  urlString : Url → String
  /-- `QUrl::setPath`. -/
  setPath : Url → String → Url
  /-- `QJsonDocument`. -/
  Document : Type
  /-- `QJsonDocument(const QJsonObject&)`. -/
  ofObject : JsonObject → Document
  /-- `QJsonDocument::object`, where `isObject` holds. -/
  rootObject : Document → Option JsonObject
  /-- `QJsonDocument::toJson` in the compact format. -/
  toJson : Document → Bytes
  /-- `QJsonDocument::fromJson`; `none` when it reports a parse error. -/
  fromJson : Bytes → Option Document
  /-- `Crypto::Hmac(key, payload, Sha256).digest()`. -/
  hmac : Bytes → Bytes → Bytes
  /-- What `Crypto::scrub` leaves in an array. -/
  scrub : Bytes → Bytes
  /-- The byte an uninitialised position of an array holds. -/
  uninitialised : Nat → UInt8
  /-- The `k`-th reading of `QDateTime::currentSecsSinceEpoch`. -/
  clock : Nat → Int64

end RestApiOut

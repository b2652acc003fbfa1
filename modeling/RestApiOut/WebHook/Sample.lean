import RestApiOut.Sample
import RestApiOut.WebHook.Model

/-!
# Hooks to run

`WebHookPlatform.sample` extends the sample platform by a clock in milliseconds and in minutes, and
reads a time correction that is written in digits.  Three retries are allowed.
-/

namespace RestApiOut

namespace Wh

namespace Sample

def digits (n : Nat) : Bytes := (Nat.toDigits 10 n).map fun c => UInt8.ofNat c.toNat

def parseDigits (body : Bytes) : Option Int64 :=
  if body ≠ [] ∧ body.all fun b => 48 ≤ b ∧ b ≤ 57 then
    some (Int64.ofNat (body.foldl (fun n b => 10 * n + (b.toNat - 48)) 0))
  else none

end Sample

def WebHookPlatform.sample : WebHookPlatform :=
  { Platform.sample with
    isEmpty := fun (url : String) => url == ""
    isEmpty_emptyUrl := rfl
    parseLongLong := Sample.parseDigits
    currentMSecs := fun k => Sample.digits (1700000000000 + k)
    dateTime := fun _ delta => Sample.digits (202401011200 + (delta / 60000).toInt.toNat)
    maximumNumberRetries := 3 }

namespace Sample

/-- Two hooks with a secret each. -/
def hooks : Hooks WebHookPlatform.sample Bool where
  globalTimestampSecret := [1, 2, 3]
  globalTimestampUrl := "https://example.com/time"
  globalTimeDelta := 0
  network := .empty
  ticks := 0
  hook k := ⟨if k then [7] else [9], "", [], 0, none, false, false⟩
  control := .loop
  trace := []

theorem hooks_initial : hooks.Initial :=
  ⟨rfl, fun _ => rfl, fun _ => ⟨rfl, rfl⟩, rfl, rfl⟩

abbrev Step := HookEvent WebHookPlatform.sample Bool

def sends (k : Bool) (delta : Int) : Step :=
  .send k "https://example.com/hook" (RestApiOut.Sample.timeDeltaAnswer delta)

def replies (r : ReplyId) (result : ReplyResult) : List Step := [.arrive r result, .finish r]

theorem timed (n : Nat) (delta : Int64) : WebHookPlatform.sample.dateTime n delta ≠ [] :=
  fun none_ => Nat.toDigits_ne_nil (List.map_eq_nil_iff.mp none_)

/-- The hash of a message did not match. -/
def denied : ReplyResult := ⟨contentAccessDenied, "Forbidden", [], none⟩

/-- A time correction of `delta` milliseconds. -/
def correction (delta : Nat) : ReplyResult := ⟨.noError, "Unknown error", digits delta, none⟩

end Sample

end Wh

end RestApiOut

/-
# What the app relies on of `org.json`

A JSON object is written to a text and read back by the platform's library.  Next to the round
trip, two of its coercions matter: `getString` takes any element for a string, and `optInt` takes
what can be read as a number for an `int`.  For a string and for a whole number they give what is
expected; `strict` is a library of which that is all there is to know.

`OrgJson` extends the codec of `Lib.Json` by the two coercions with these laws, and the accessors of
the source are defined from them: `optJSONObject` and `optJSONArray` look a member up and ask for
its kind, `getString` and `optInt` coerce it, each with what the library does where there is no such
member.

What a coercion makes of a value of another kind is not said: it is a field without a law.  So a
theorem for every `OrgJson` does not depend on it.
-/
import ShiroKhorshid.Jvm
import ShiroKhorshid.Lib.Json

namespace ShiroKhorshid

open Jvm

/-- `org.json`, with `JSON.toString` and `JSON.toInteger` for what they make of a value. -/
structure OrgJson extends Json.Codec where
  asString : Json.Value → Option String
  asInteger : Json.Value → Option ℤ
  asString_str : ∀ s, asString (.str s) = some s
  asInteger_int : ∀ n, asInteger (.int n) = some (toInt32 n)

namespace OrgJson

attribute [simp] asString_str asInteger_int

/-- `optJSONObject(name)`. -/
def optJSONObject (o : Json.Object) (name : String) : Option Json.Object :=
  match o.lookup name with
  | some (.obj inner) => some inner
  | _ => none

/-- `optJSONArray(name)`. -/
def optJSONArray (o : Json.Object) (name : String) : Option (List Json.Value) :=
  match o.lookup name with
  | some (.arr vs) => some vs
  | _ => none

/-- `has(name)` -/
def has (o : Json.Object) (name : String) : Bool := (o.lookup name).isSome

/-- `getJSONObject(name)` -/
def getJSONObject (o : Json.Object) (name : String) : Except Thrown Json.Object :=
  match optJSONObject o name with
  | some inner => .ok inner
  | none => .error .json

variable (J : OrgJson)

/-- `JSONObject(text)` -/
def readObject (text : String) : Except Thrown Json.Object :=
  match J.parse text with
  | some o => .ok o
  | none => .error .json

/-- `getString(name)`; `none` is the `JSONException`. -/
def getString (o : Json.Object) (name : String) : Option String :=
  (o.lookup name).bind J.asString

/-- `optInt(name, fallback)`. -/
def optInt (o : Json.Object) (name : String) (fallback : ℤ) : ℤ :=
  ((o.lookup name).bind J.asInteger).getD fallback

/-- The shortest text, and no coercions but those of a string and of a whole number. -/
def strict : OrgJson where
  toCodec := Json.strict
  asString v :=
    match v with
    | .str s => some s
    | .int n => some (toString n)
    | _ => none
  asInteger v :=
    match v with
    | .int n => some (toInt32 n)
    | _ => none
  asString_str _ := rfl
  asInteger_int _ := rfl

/-- `optString(name, fallback)`. -/
def optString (o : Json.Object) (name fallback : String) : String :=
  (J.getString o name).getD fallback

/-- With `JSON.toLong`, for a `long`. -/
structure WithLong extends OrgJson where
  asLong : Json.Value → Option Int64
  asLong_int : ∀ n : Int64, asLong (.int n.toInt) = some n

attribute [simp] WithLong.asLong_int

/-- `optLong(name, fallback)`. -/
def WithLong.optLong (J : WithLong) (o : Json.Object) (name : String) (fallback : Int64) : Int64 :=
  ((o.lookup name).bind J.asLong).getD fallback

/-- `strict`, with no `long` but a whole number. -/
def strictLong : WithLong where
  toOrgJson := strict
  asLong v :=
    match v with
    | .int n => some (Int64.ofInt n)
    | _ => none
  asLong_int n := congrArg some (Int64.ofInt_toInt n)

end OrgJson

end ShiroKhorshid

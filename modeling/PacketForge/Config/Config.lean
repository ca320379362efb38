import Mathlib.Tactic

set_option autoImplicit false

/-! # Configurations (`config/config_value.cpp`, `config/config.cpp`)

A configuration maps keys to values of three types. A text is a list of bytes.

The map of the code has no order that a caller can rely on, so a configuration is a function from
keys to optional values, and two of them are equal if they give the same values (`ext_get`).
-/

namespace PacketForge

/-- `std::string`. -/
abbrev StdString := List UInt8

/-- `class ConfigValue`, with its `std::variant`. -/
inductive ConfigValue where
  | string (value : StdString)
  | integer (value : Int64)
  | boolean (value : Bool)
  deriving DecidableEq, Repr

namespace ConfigValue

/-- `ConfigValue::asInteger`: the value, or the `what()` of the exception. -/
def asInteger : ConfigValue → Except String Int64
  | .integer value => .ok value
  | _ => .error "ConfigValue does not contain an integer"

end ConfigValue

/-- `class Config`: the entries of its `std::unordered_map`. -/
structure Config where
  values : StdString → Option ConfigValue

namespace Config

/-- `Config::Config`. -/
def new : Config := ⟨fun _ => none⟩

/-- `Config::contains`. -/
def contains (self : Config) (key : StdString) : Bool := (self.values key).isSome

/-- `Config::set`. -/
def set (self : Config) (key : StdString) (value : ConfigValue) : Config :=
  ⟨Function.update self.values key (some value)⟩

/-- `Config::get`, with `none` for the null pointer. -/
def get (self : Config) (key : StdString) : Option ConfigValue := self.values key

variable (self : Config) (key key' : StdString) (value : ConfigValue)

@[simp] theorem get_new : new.get key = none := rfl

@[simp] theorem get_set_self : (self.set key value).get key = some value := Function.update_self ..

theorem get_set_ne (hne : key' ≠ key) : (self.set key value).get key' = self.get key' :=
  Function.update_of_ne hne ..

theorem ext_get {self other : Config} (hget : ∀ key, self.get key = other.get key) :
    self = other := congrArg Config.mk (funext hget)

theorem contains_eq : self.contains key = (self.get key).isSome := rfl

end Config

end PacketForge

import StoreClient.Log
import StoreClient.Pool.Config
import StoreClient.Text.Blank
import StoreClient.Text.Lowercase
import StoreClient.Text.Numeral
import StoreClient.Text.Split

/-!
# Options of a pool

A configuration can be written as a text of assignments `key=value`, separated by semicolons. Blanks
around parts, keys and values do not count, nor does the case of keys; blank parts and parts with
unknown keys are ignored. A later assignment of a setting replaces an earlier one, and the
configuration is checked once all parts are read.
-/

namespace StoreClient

/-- The settings of a pool. -/
inductive Setting where
  | minSize
  | maxSize
  | waitTimeout
  | maxAcquireRetryCount
  | closeAttemptInterval
  | maxCloseAttempts
  | sendTimeout
  | connectTimeout
  | shutdownTimeout
  | bufferSize
deriving DecidableEq, Repr

namespace Setting

/-- The keys of the settings, in lower case; some settings have two. -/
def keys : List (String × Setting) :=
  [("minsize", .minSize), ("min size", .minSize), ("maxsize", .maxSize), ("max size", .maxSize),
    ("waittimeout", .waitTimeout), ("wait timeout", .waitTimeout),
    ("maxacquireretrycount", .maxAcquireRetryCount),
    ("closeattemptinterval", .closeAttemptInterval), ("maxcloseattempts", .maxCloseAttempts),
    ("sendtimeout", .sendTimeout), ("connecttimeout", .connectTimeout),
    ("connect timeout", .connectTimeout), ("shutdowntimeout", .shutdownTimeout),
    ("buffersize", .bufferSize)]

/-- The setting of a key in lower case. -/
def ofKey? (key : String) : Option Setting := keys.lookup key

/-- The bound below which the values of a setting lie: counts of attempts take 32 bits, all others
64. -/
def bound : Setting → Nat
  | .maxAcquireRetryCount | .maxCloseAttempts => 0x100000000
  | _ => 0x10000000000000000

/-- The value of a setting in a configuration. -/
def get (c : PoolConfig) : Setting → Nat
  | .minSize => c.minSize
  | .maxSize => c.maxSize
  | .waitTimeout => c.waitTimeout
  | .maxAcquireRetryCount => c.maxAcquireRetryCount
  | .closeAttemptInterval => c.closeAttemptInterval
  | .maxCloseAttempts => c.maxCloseAttempts
  | .sendTimeout => c.sendTimeout
  | .connectTimeout => c.connectTimeout
  | .shutdownTimeout => c.shutdownTimeout
  | .bufferSize => c.bufferSize

/-- The configuration in which a setting has a value. -/
def assign (c : PoolConfig) (value : Nat) : Setting → PoolConfig
  | .minSize => { c with minSize := value }
  | .maxSize => { c with maxSize := value }
  | .waitTimeout => { c with waitTimeout := value }
  | .maxAcquireRetryCount => { c with maxAcquireRetryCount := value }
  | .closeAttemptInterval => { c with closeAttemptInterval := value }
  | .maxCloseAttempts => { c with maxCloseAttempts := value }
  | .sendTimeout => { c with sendTimeout := value }
  | .connectTimeout => { c with connectTimeout := value }
  | .shutdownTimeout => { c with shutdownTimeout := value }
  | .bufferSize => { c with bufferSize := value }

@[simp] theorem get_assign (c : PoolConfig) (value : Nat) (s : Setting) :
    get (assign c value s) s = value := by
  cases s <;> rfl

theorem get_assign_of_ne {c : PoolConfig} {value : Nat} {s t : Setting} (h : s ≠ t) :
    get (assign c value s) t = get c t := by
  cases s <;> cases t <;> simp [get, assign] at h ⊢

end Setting

namespace Options

/-- What a part of the options says. -/
inductive Part where
  /-- Nothing. -/
  | blank
  /-- A setting has a value. -/
  | assignment (setting : Setting) (value : Nat)
  /-- Something about a key that is no setting. -/
  | unknown (key value : String)
deriving DecidableEq, Repr

/-- Reads the part with a key and a value, both trimmed, the key in lower case. -/
def Part.ofKeyValue (key value : List Char) : Except PoolError Part :=
  match Setting.ofKey? (String.ofList key) with
  | none => .ok (.unknown (String.ofList key) (String.ofList value))
  | some setting =>
    match Numeral.read? setting.bound value with
    | some n => .ok (.assignment setting n)
    | none =>
      .error (.config
        ("invalid value for " ++ String.ofList key ++ ": " ++ String.ofList value))

/-- Reads a part: at its first equals sign it is cut into key and value. -/
def Part.read (text : List Char) : Except PoolError Part :=
  let part := Text.trim text
  if part.isEmpty then .ok .blank
  else
    match part.dropWhile (· ≠ '=') with
    | [] => .error (.config ("invalid key-value: " ++ String.ofList part))
    | _ :: value =>
      Part.ofKeyValue (Text.lowercase (Text.trim (part.takeWhile (· ≠ '=')))) (Text.trim value)

/-- The configuration after a part. -/
def Part.apply (c : PoolConfig) : Part → PoolConfig
  | .assignment setting value => setting.assign c value
  | _ => c

/-- What a part logs. -/
def Part.log : Part → List Log.Entry
  | .unknown key value =>
    [{ level := .debug
       message := "ignoring unknown pool option"
       values := [("key", key), ("value", value)] }]
  | _ => []

/-- The parts of the options, each as it is read. -/
def parts (text : String) : List (Except PoolError Part) :=
  (Text.splitOn ';' text.toList).map Part.read

/-- The configuration after all parts, or the error of the first part that cannot be read. -/
def applyAll (c : PoolConfig) : List (Except PoolError Part) → Except PoolError PoolConfig
  | [] => .ok c
  | .ok part :: rest => applyAll (part.apply c) rest
  | .error e :: _ => .error e

/-- The configuration that the options describe, starting from the default one. -/
def read (text : String) : Except PoolError PoolConfig := do
  let c ← applyAll {} (parts text)
  c.validate
  return c

/-- What the parts log, up to the first one that cannot be read. -/
def logAll : List (Except PoolError Part) → List Log.Entry
  | .ok part :: rest => part.log ++ logAll rest
  | _ => []

/-- What reading the options logs. -/
def log (text : String) : List Log.Entry := logAll (parts text)

end Options

end StoreClient

import MayAgent.Lib.Pattern

/-!
# JSON values

Values of the event journal and of Task payloads. Objects are kept in the canonical key order in
which they are persisted, so equality of values is equality of their canonical texts, and a digest
of a canonical text is represented by the value it was taken of.
-/

namespace MayAgent

/-- A JSON value. Numbers are integers: every number the reconciler reads is an id, a counter or a
time in milliseconds. -/
inductive Value where
  | null
  | bool (b : Bool)
  | num (n : Int)
  | str (s : String)
  | arr (items : List Value)
  | obj (fields : List (String × Value))

/-- A JSON record, such as an event envelope. -/
abbrev Event := List (String × Value)

namespace Value

mutual

def decEq : (a b : Value) → Decidable (a = b)
  | .null, .null => isTrue rfl
  | .bool a, .bool b => if h : a = b then isTrue (h ▸ rfl) else isFalse (fun e => h (Value.bool.inj e))
  | .num a, .num b => if h : a = b then isTrue (h ▸ rfl) else isFalse (fun e => h (Value.num.inj e))
  | .str a, .str b => if h : a = b then isTrue (h ▸ rfl) else isFalse (fun e => h (Value.str.inj e))
  | .arr a, .arr b =>
    match decEqItems a b with
    | isTrue h => isTrue (h ▸ rfl)
    | isFalse h => isFalse (fun e => h (Value.arr.inj e))
  | .obj a, .obj b =>
    match decEqFields a b with
    | isTrue h => isTrue (h ▸ rfl)
    | isFalse h => isFalse (fun e => h (Value.obj.inj e))
  | .null, .bool _ | .null, .num _ | .null, .str _ | .null, .arr _ | .null, .obj _
  | .bool _, .null | .bool _, .num _ | .bool _, .str _ | .bool _, .arr _ | .bool _, .obj _
  | .num _, .null | .num _, .bool _ | .num _, .str _ | .num _, .arr _ | .num _, .obj _
  | .str _, .null | .str _, .bool _ | .str _, .num _ | .str _, .arr _ | .str _, .obj _
  | .arr _, .null | .arr _, .bool _ | .arr _, .num _ | .arr _, .str _ | .arr _, .obj _
  | .obj _, .null | .obj _, .bool _ | .obj _, .num _ | .obj _, .str _ | .obj _, .arr _ =>
    isFalse (fun e => by cases e)

def decEqItems : (a b : List Value) → Decidable (a = b)
  | [], [] => isTrue rfl
  | [], _ :: _ => isFalse (fun e => by cases e)
  | _ :: _, [] => isFalse (fun e => by cases e)
  | a :: as, b :: bs =>
    match decEq a b, decEqItems as bs with
    | isTrue h, isTrue h' => isTrue (h ▸ h' ▸ rfl)
    | isFalse h, _ => isFalse (fun e => h (List.cons.inj e).1)
    | _, isFalse h => isFalse (fun e => h (List.cons.inj e).2)

def decEqFields : (a b : List (String × Value)) → Decidable (a = b)
  | [], [] => isTrue rfl
  | [], _ :: _ => isFalse (fun e => by cases e)
  | _ :: _, [] => isFalse (fun e => by cases e)
  | (k, a) :: as, (l, b) :: bs =>
    if hk : k = l then
      match decEq a b, decEqFields as bs with
      | isTrue h, isTrue h' => isTrue (hk ▸ h ▸ h' ▸ rfl)
      | isFalse h, _ => isFalse (fun e => h (Prod.mk.inj (List.cons.inj e).1).2)
      | _, isFalse h => isFalse (fun e => h (List.cons.inj e).2)
    else isFalse (fun e => hk (Prod.mk.inj (List.cons.inj e).1).1)

end

instance : DecidableEq Value := decEq

instance : Inhabited Value := ⟨.null⟩

/-- `isRecord`: the fields of an object, nothing for any other value. -/
def record? : Value → Option Event
  | .obj fields => some fields
  | _ => none

def array? : Value → Option (List Value)
  | .arr items => some items
  | _ => none

def string? : Value → Option String
  | .str s => some s
  | _ => none

end Value

/-! ### Texts

The text operations the reconciler applies to identifiers, on characters so that they evaluate. -/

namespace Text

def trim (s : String) : String := String.ofList (strip isSpace s.toList)

theorem trim_trim (s : String) : trim (trim s) = trim s := by
  rw [trim, trim, String.toList_ofList, strip_strip]

variable {s : String}

theorem trim_eq_self (hfirst : ∀ c ∈ s.toList.head?, isSpace c = false)
    (hlast : ∀ c ∈ s.toList.getLast?, isSpace c = false) : trim s = s := by
  rw [trim, strip_eq_self hfirst hlast, String.ofList_toList]

/-- Neither the first nor the last character is a blank. -/
def Tidy (s : String) : Prop := ∀ c, s.toList.head? = some c ∨ s.toList.getLast? = some c → isSpace c = false

theorem trim_eq_self_iff : trim s = s ↔ Tidy s := by
  refine ⟨fun h c hc => ?_, fun h => trim_eq_self (fun c hc => h c (.inl hc)) fun c hc => h c (.inr hc)⟩
  have hstrip : strip isSpace s.toList = s.toList := by simpa [trim] using congrArg String.toList h
  rw [← hstrip] at hc
  exact hc.elim strip_head strip_getLast

theorem length_trim_le (s : String) : (trim s).length ≤ s.length := by
  rw [trim, String.length_ofList, ← String.length_toList]
  exact (List.rdropWhile_prefix _ _).length_le.trans (List.dropWhile_suffix _).length_le

theorem trim_ne_empty {c : Char} (hfirst : s.toList.head? = some c) (hc : isSpace c = false) :
    trim s ≠ "" := by
  intro h
  have hnil : strip isSpace s.toList = [] := by simpa [trim] using congrArg String.toList h
  rw [strip_eq_rdropWhile (by rw [hfirst]; rintro _ ⟨⟩; exact hc), List.rdropWhile_eq_nil_iff] at hnil
  rw [hnil c (List.mem_of_head? hfirst)] at hc
  cases hc

def startsWith (s pre : String) : Bool := pre.toList.isPrefixOf s.toList

def endsWith (s suf : String) : Bool := suf.toList.isSuffixOf s.toList

def drop (n : Nat) (s : String) : String := String.ofList (s.toList.drop n)

theorem append_drop_of_startsWith {pre : String} (h : startsWith s pre = true) : pre ++ drop pre.length s = s := by
  rw [startsWith, List.isPrefixOf_iff_prefix, List.prefix_iff_eq_append] at h
  apply String.toList_inj.mp
  rw [String.toList_append, drop, String.toList_ofList, ← String.length_toList]
  exact h

def contains (s : String) (c : Char) : Bool := s.toList.contains c

def nonEmpty (s : String) : Bool := trim s != ""

/-- The trimmed text when it is non-empty, as in `value?.trim() ? { field: value.trim() } : {}`. -/
def trimmed? (s : Option String) : Option String :=
  match s with
  | some t => if nonEmpty t then some (trim t) else none
  | none => none

def lower (s : String) : String := String.ofList (s.toList.map Char.toLower)

def digits? : List Char → Option Nat
  | [] => none
  | cs => if cs.all Char.isDigit then some (cs.foldl (fun n c => n * 10 + (c.toNat - '0'.toNat)) 0) else none

/-- The decimal integer a text denotes; the empty text denotes zero, as `Number("")` does. -/
def number? (s : String) : Option Int :=
  match (trim s).toList with
  | [] => some 0
  | '-' :: cs => (digits? cs).map fun n => -(n : Int)
  | '+' :: cs => (digits? cs).map fun n => (n : Int)
  | cs => (digits? cs).map fun n => (n : Int)

end Text

namespace Value

mutual

/-- `String(value)`. -/
def text : Value → String
  | .null => "null"
  | .bool b => if b then "true" else "false"
  | .num n => toString n
  | .str s => s
  | .arr items => textItems items
  | .obj _ => "[object Object]"

/-- `Array.prototype.join`, in which `null` is the empty text. -/
def textItems : List Value → String
  | [] => ""
  | [.null] => ""
  | [v] => text v
  | .null :: rest => "," ++ textItems rest
  | v :: rest => text v ++ "," ++ textItems rest

end

/-- `Number(value)`, with `none` for `NaN`. -/
def number? : Value → Option Int
  | .null => some 0
  | .bool b => some (if b then 1 else 0)
  | .num n => some n
  | .str s => Text.number? s
  | .arr items => Text.number? (textItems items)
  | .obj _ => none

/-- JavaScript truthiness. -/
def truthy : Value → Bool
  | .null => false
  | .bool b => b
  | .num n => n != 0
  | .str s => s != ""
  | .arr _ => true
  | .obj _ => true

end Value

/-- `Number.isSafeInteger`. -/
def isSafeInteger (n : Int) : Bool := -9007199254740991 ≤ n && n ≤ 9007199254740991

namespace Event

/-- `event[name]`, absent when the field is `undefined`. -/
def field (e : Event) (name : String) : Option Value := e.lookup name

/-- `event[name]` when it is a string. -/
def string? (e : Event) (name : String) : Option String := (e.field name).bind Value.string?

/-- `event[name]` when it is a record. -/
def record? (e : Event) (name : String) : Option Event := (e.field name).bind Value.record?

/-- `Number(event[name])`, with `none` for `NaN`. -/
def number? (e : Event) (name : String) : Option Int := (e.field name).bind Value.number?

/-- Assigns one field at its place in the key order, as a spread followed by `name: value` does. -/
def assign (name : String) (v : Value) : Event → Event
  | [] => [(name, v)]
  | (k, w) :: rest =>
    if name = k then (name, v) :: rest
    else if name < k then (name, v) :: (k, w) :: rest
    else (k, w) :: assign name v rest

/-- A record of the given fields without those that are `undefined`. -/
def ofFields (fields : List (String × Option Value)) : Event :=
  fields.filterMap fun f => f.2.map fun v => (f.1, v)

theorem field_cons (key other : String) (v : Value) (rest : Event) :
    Event.field ((key, v) :: rest) other = if other = key then some v else rest.field other := by
  by_cases h : other = key
  · simp [field, h]
  · have hne : (other == key) = false := by simpa using h
    simp [field, List.lookup_cons, h, hne]

theorem field_filter (p : String → Bool) (e : Event) (name : String) :
    Event.field (e.filter fun entry => p entry.1) name = if p name then e.field name else none := by
  induction e with
  | nil => simp [field]
  | cons entry _ ih =>
    obtain ⟨key, v⟩ := entry
    rw [field_cons]
    by_cases hkey : name = key
    · subst hkey
      cases hp : p name with
      | true => simp [hp, field_cons]
      | false => simpa [hp] using ih
    · cases hp : p key with
      | true => simpa [hp, field_cons, hkey] using ih
      | false => simpa [hp, hkey] using ih

theorem field_ofFields (fields : List (String × Option Value)) (name : String) :
    (ofFields fields).field name = fields.findSome? fun f => if f.1 = name then f.2 else none := by
  induction fields with
  | nil => rfl
  | cons f fields ih =>
    obtain ⟨key, value⟩ := f
    rw [List.findSome?_cons, ← ih]
    cases value with
    | none => simp [ofFields]
    | some v =>
      show Event.field ((key, v) :: ofFields fields) name = _
      rw [field_cons]
      by_cases hkey : key = name
      · simp [hkey]
      · simp [hkey, Ne.symm hkey]

variable {name : String} {p : String × Value → Bool} {v : Value}

theorem field_assign (e : Event) (name other : String) (v : Value) :
    (e.assign name v).field other = if other = name then some v else e.field other := by
  induction e with
  | nil => exact field_cons name other v []
  | cons entry _ ih =>
    obtain ⟨key, w⟩ := entry
    by_cases hkey : name = key
    · rw [assign, if_pos hkey, field_cons, field_cons]
      by_cases h : other = name
      · rw [if_pos h, if_pos h]
      · rw [if_neg h, if_neg h, if_neg (hkey ▸ h)]
    · by_cases hlt : name < key
      · rw [assign, if_neg hkey, if_pos hlt, field_cons]
      · rw [assign, if_neg hkey, if_neg hlt, field_cons, field_cons, ih]
        by_cases h : other = name
        · rw [if_neg (h ▸ hkey), if_pos h, if_pos h]
        · rw [if_neg h, if_neg h]

theorem filter_assign_of_not (hp : ∀ w, p (name, w) = false) (e : Event) :
    (e.assign name v).filter p = e.filter p := by
  induction e with
  | nil => simp [assign, hp]
  | cons entry _ ih =>
    obtain ⟨_, w⟩ := entry
    rw [assign]
    split
    case isTrue hkey => simp [← hkey, hp]
    case isFalse =>
      split
      · simp [hp]
      · simp only [List.filter_cons, ih]

/-- An assignment that a filter does not see, though it keeps the field, changes nothing. -/
theorem assign_eq_of_filter (hp : ∀ w, p (name, w) = true) {e : Event}
    (h : (e.assign name v).filter p = e.filter p) : e.assign name v = e := by
  induction e with
  | nil => simp [assign, hp] at h
  | cons entry _ ih =>
    obtain ⟨_, w⟩ := entry
    rw [assign] at h ⊢
    split at h
    case isTrue hkey =>
      subst hkey
      simp only [List.filter_cons, hp, if_true, List.cons.injEq, Prod.mk.injEq, true_and] at h
      rw [if_pos rfl, h.1]
    case isFalse hkey =>
      rw [if_neg hkey]
      split at h
      case isTrue =>
        have hlength := congrArg List.length h
        simp [List.filter_cons, hp] at hlength
      case isFalse hlt =>
        rw [if_neg hlt]
        rw [ih]
        simp only [List.filter_cons] at h
        split at h
        · exact (List.cons.inj h).2
        · exact h

theorem field_ne_self (e : Event) (name : String) : e.field name ≠ some (.obj e) := by
  intro h
  have hmem : ∀ (e : Event) (v : Value), e.field name = some v → sizeOf v < sizeOf e := by
    intro e
    induction e with
    | nil => nofun
    | cons entry _ ih =>
      obtain ⟨_, w⟩ := entry
      intro v hv
      rw [field_cons] at hv
      split at hv
      · obtain rfl := Option.some.inj hv
        simp
        omega
      · have := ih v hv
        simp
        omega
  have hsize := hmem e _ h
  grind

end Event

end MayAgent

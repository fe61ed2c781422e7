import Mathlib.Data.List.Sort

namespace AgentDesk

/-- The JSON values that notification payloads are made of. -/
inductive Json where
  | null
  | str (s : String)
  | obj (fields : List (String × Json))

namespace Json

mutual

def decEq : (a b : Json) → Decidable (a = b)
  | .null, .null => isTrue rfl
  | .str s, .str t =>
    if h : s = t then isTrue (by rw [h]) else isFalse (by rintro ⟨⟩; exact h rfl)
  | .obj xs, .obj ys =>
    match decEqFields xs ys with
    | isTrue h => isTrue (by rw [h])
    | isFalse h => isFalse (by rintro ⟨⟩; exact h rfl)
  | .null, .str _ => isFalse (by rintro ⟨⟩)
  | .null, .obj _ => isFalse (by rintro ⟨⟩)
  | .str _, .null => isFalse (by rintro ⟨⟩)
  | .str _, .obj _ => isFalse (by rintro ⟨⟩)
  | .obj _, .null => isFalse (by rintro ⟨⟩)
  | .obj _, .str _ => isFalse (by rintro ⟨⟩)

def decEqFields : (xs ys : List (String × Json)) → Decidable (xs = ys)
  | [], [] => isTrue rfl
  | [], _ :: _ => isFalse (by rintro ⟨⟩)
  | _ :: _, [] => isFalse (by rintro ⟨⟩)
  | (k, v) :: xs, (l, w) :: ys =>
    if hk : k = l then
      match decEq v w with
      | isTrue hv =>
        match decEqFields xs ys with
        | isTrue ht => isTrue (by rw [hk, hv, ht])
        | isFalse ht => isFalse (by rintro ⟨⟩; exact ht rfl)
      | isFalse hv => isFalse (by rintro ⟨⟩; exact hv rfl)
    else isFalse (by rintro ⟨⟩; exact hk rfl)

end

instance : DecidableEq Json := decEq

/-- The four hexadecimal digits of a `\u` escape. -/
def hex4 (n : Nat) : List Char :=
  [Nat.digitChar (n / 4096 % 16), Nat.digitChar (n / 256 % 16), Nat.digitChar (n / 16 % 16),
    Nat.digitChar (n % 16)]

/-- `ensure_ascii`: printable ASCII stays, everything else becomes an escape, characters
beyond the basic plane a pair of surrogates. -/
def escapeChar (c : Char) : List Char :=
  let n := c.toNat
  let bs := Char.ofNat 92
  if n = 34 then [bs, Char.ofNat 34]
  else if n = 92 then [bs, bs]
  else if n = 10 then [bs, Char.ofNat 110]
  else if n = 13 then [bs, Char.ofNat 114]
  else if n = 9 then [bs, Char.ofNat 116]
  else if n = 8 then [bs, Char.ofNat 98]
  else if n = 12 then [bs, Char.ofNat 102]
  else if 32 ≤ n ∧ n ≤ 126 then [c]
  else if n < 65536 then bs :: Char.ofNat 117 :: hex4 n
  else bs :: Char.ofNat 117 :: hex4 (55296 + (n - 65536) / 1024) ++
    bs :: Char.ofNat 117 :: hex4 (56320 + (n - 65536) % 1024)

def quote (s : String) : List Char :=
  Char.ofNat 34 :: s.toList.flatMap escapeChar ++ [Char.ofNat 34]

/-- Keys are compared by code points. -/
def keyLe (a b : String × List Char) : Bool := !(decide (b.1 < a.1))

def joinFields : List (String × List Char) → List Char
  | [] => []
  | [(k, v)] => quote k ++ Char.ofNat 58 :: v
  | (k, v) :: rest => quote k ++ Char.ofNat 58 :: v ++ Char.ofNat 44 :: joinFields rest

mutual

/-- `json.dumps(value, separators=(",", ":"), sort_keys=True)`. -/
def dumps : Json → List Char
  | .null => "null".toList
  | .str s => quote s
  | .obj fields =>
    Char.ofNat 123 :: joinFields ((dumpFields fields).insertionSort fun a b => keyLe a b = true) ++
      [Char.ofNat 125]

def dumpFields : List (String × Json) → List (String × List Char)
  | [] => []
  | (k, v) :: rest => (k, dumps v) :: dumpFields rest

end

end Json

end AgentDesk

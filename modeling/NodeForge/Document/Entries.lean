/-!
# Ordered entries

A mapping is a row of entries, a key with a value, in the order in which the keys were first
written. A key that is written again keeps its place and takes the new value. The functions here
are for any kind of key that can be compared; looking a key up is `List.lookup`.
-/

namespace NodeForge.Entries

variable {κ α β : Type}

/-- Gives `key` the value `value`, at its old place or, if it is new, at the end. -/
def put [BEq κ] (key : κ) (value : α) : List (κ × α) → List (κ × α)
  | [] => [(key, value)]
  | (k, v) :: rest => if k == key then (k, value) :: rest else (k, v) :: put key value rest

/-- Writes the entries of `extra` over those of `base`, in their order. -/
def putAll [BEq κ] (base extra : List (κ × α)) : List (κ × α) :=
  extra.foldl (fun es e => put e.1 e.2 es) base

/-- The entries under any other key. -/
def without [BEq κ] (key : κ) (entries : List (κ × α)) : List (κ × α) :=
  entries.filter fun e => !(e.1 == key)

/-- Whether the key is there. -/
def has [BEq κ] (key : κ) (entries : List (κ × α)) : Bool := (entries.lookup key).isSome

/-- The keys in their order. -/
def keys (entries : List (κ × α)) : List κ := entries.map Prod.fst

/-- The values in the order of their keys. -/
def values (entries : List (κ × α)) : List α := entries.map Prod.snd

/-- A row of entries in which later writings of a key count. -/
def ofList [BEq κ] (entries : List (κ × α)) : List (κ × α) := putAll [] entries

/-- The members of a row without those that came before, in the order of first occurrence. -/
def distinct [BEq κ] : List κ → List κ
  | [] => []
  | k :: rest => k :: (distinct rest).filter fun x => !(k == x)

/-! ### Laws -/

@[simp] theorem put_nil [BEq κ] (key : κ) (value : α) : put key value [] = [(key, value)] := rfl

@[simp] theorem keys_cons (e : κ × α) (entries : List (κ × α)) :
    keys (e :: entries) = e.1 :: keys entries := rfl

theorem lookup_put_self [BEq κ] [LawfulBEq κ] (key : κ) (value : α) (entries : List (κ × α)) :
    (put key value entries).lookup key = some value := by
  induction entries with
  | nil => simp [put]
  | cons e rest ih =>
    obtain ⟨k, v⟩ := e
    by_cases h : k == key
    · have hk : k = key := eq_of_beq h
      simp [put, hk]
    · have hne : ¬ key = k := fun he => h (by simp [he])
      have hb : (key == k) = false := by simpa using hne
      simp [put, h, List.lookup_cons, hb, ih]

end NodeForge.Entries

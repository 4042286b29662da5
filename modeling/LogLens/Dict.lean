/-
Dictionaries in ascending key order.

A dictionary holds its entries as a list sorted by key, so two dictionaries with the same entries
are equal and every walk over one goes in key order.  All changes are made through `alter`.
-/
namespace LogLens

/-- Keys with a decidable strict total order. -/
class Key (α : Type) where
  lt : α → α → Prop
  decide_lt : ∀ a b, Decidable (lt a b)
  irrefl : ∀ a, ¬ lt a a
  trans : ∀ {a b c}, lt a b → lt b c → lt a c
  eq_of_not_lt : ∀ {a b}, ¬ lt a b → ¬ lt b a → a = b

instance {α : Type} [Key α] (a b : α) : Decidable (Key.lt a b) :=
  Key.decide_lt a b

/-- Texts are ordered by code points. -/
instance : Key String where
  lt a b := a < b
  decide_lt a b := inferInstanceAs (Decidable (a < b))
  irrefl := String.lt_irrefl
  trans := String.lt_trans
  eq_of_not_lt h h' := String.le_antisymm (String.not_lt.mp h') (String.not_lt.mp h)

instance : Key Nat where
  lt a b := a < b
  decide_lt a b := inferInstanceAs (Decidable (a < b))
  irrefl := Nat.lt_irrefl
  trans := Nat.lt_trans
  eq_of_not_lt h h' := by omega

/-- Entries in strictly ascending order of their keys. -/
structure Dict (α β : Type) [Key α] where
  entries : List (α × β)
  ascending : entries.Pairwise fun a b => Key.lt a.1 b.1

namespace Dict

variable {α β : Type} [Key α]

/-! ## Changes -/

/-- Replaces the entry under `k`, if any, by what `f` makes of it. -/
def alterEntries (k : α) (f : Option β → Option β) : List (α × β) → List (α × β)
  | [] => ((f none).map (k, ·)).toList
  | e :: rest =>
    if Key.lt k e.1 then ((f none).map (k, ·)).toList ++ e :: rest
    else if Key.lt e.1 k then e :: alterEntries k f rest
    else ((f (some e.2)).map (k, ·)).toList ++ rest

theorem key_of_mem_alterEntries {k : α} {f : Option β → Option β} {l : List (α × β)}
    {e : α × β} (h : e ∈ alterEntries k f l) : e.1 = k ∨ e ∈ l := by
  induction l with
  | nil =>
    simp only [alterEntries, Option.mem_toList, Option.map_eq_some_iff] at h
    obtain ⟨v, -, rfl⟩ := h
    exact Or.inl rfl
  | cons a rest ih =>
    simp only [alterEntries] at h
    split at h
    · rcases List.mem_append.mp h with h | h
      · simp only [Option.mem_toList, Option.map_eq_some_iff] at h
        obtain ⟨v, -, rfl⟩ := h
        exact Or.inl rfl
      · exact Or.inr h
    · split at h
      · rcases List.mem_cons.mp h with rfl | h
        · exact Or.inr (List.mem_cons_self ..)
        · exact (ih h).imp_right (List.mem_cons_of_mem _)
      · rcases List.mem_append.mp h with h | h
        · simp only [Option.mem_toList, Option.map_eq_some_iff] at h
          obtain ⟨v, -, rfl⟩ := h
          exact Or.inl rfl
        · exact Or.inr (List.mem_cons_of_mem _ h)

theorem ascending_alterEntries (k : α) (f : Option β → Option β) {l : List (α × β)}
    (h : l.Pairwise fun a b => Key.lt a.1 b.1) :
    (alterEntries k f l).Pairwise fun a b => Key.lt a.1 b.1 := by
  have one : ∀ (o : Option β), (o.map (k, ·)).toList.Pairwise
      fun (a b : α × β) => Key.lt a.1 b.1 := by
    intro o; cases o <;> simp
  have key : ∀ {o : Option β} {a : α × β}, a ∈ (o.map (k, ·)).toList → a.1 = k := by
    intro o a ha
    simp only [Option.mem_toList, Option.map_eq_some_iff] at ha
    obtain ⟨v, -, rfl⟩ := ha
    rfl
  induction l with
  | nil => exact one _
  | cons a rest ih =>
    obtain ⟨ha, hrest⟩ := List.pairwise_cons.mp h
    simp only [alterEntries]
    split
    · rename_i hk
      refine List.pairwise_append.mpr ⟨one _, h, fun x hx y hy => ?_⟩
      rw [key hx]
      rcases List.mem_cons.mp hy with rfl | hy
      · exact hk
      · exact Key.trans hk (ha y hy)
    · split
      · rename_i hk
        refine List.pairwise_cons.mpr ⟨fun y hy => ?_, ih hrest⟩
        rcases key_of_mem_alterEntries hy with hy | hy
        · rw [hy]; exact hk
        · exact ha y hy
      · rename_i hk hk'
        have hak : k = a.1 := Key.eq_of_not_lt hk hk'
        refine List.pairwise_append.mpr ⟨one _, hrest, fun x hx y hy => ?_⟩
        rw [key hx, hak]
        exact ha y hy

/-- Replaces the entry under `k`, if any, by what `f` makes of it. -/
def alter (d : Dict α β) (k : α) (f : Option β → Option β) : Dict α β :=
  ⟨alterEntries k f d.entries, ascending_alterEntries k f d.ascending⟩

def empty : Dict α β := ⟨[], List.Pairwise.nil⟩

/-- Puts `v` under `k`, in place of what was there. -/
def insert (d : Dict α β) (k : α) (v : β) : Dict α β :=
  d.alter k fun _ => some v

def erase (d : Dict α β) (k : α) : Dict α β :=
  d.alter k fun _ => none

/-- Puts the pairs into the dictionary one after the other, so the last pair of a key stays. -/
def insertAll (d : Dict α β) (pairs : List (α × β)) : Dict α β :=
  pairs.foldl (fun d p => d.insert p.1 p.2) d

def ofList (pairs : List (α × β)) : Dict α β :=
  empty.insertAll pairs

/-! ## Questions -/

def get? (d : Dict α β) (k : α) : Option β :=
  (d.entries.find? fun e => ¬ Key.lt e.1 k ∧ ¬ Key.lt k e.1).map (·.2)

def contains (d : Dict α β) (k : α) : Bool :=
  (d.get? k).isSome

def size (d : Dict α β) : Nat :=
  d.entries.length

def isEmpty (d : Dict α β) : Bool :=
  d.entries.isEmpty

def keys (d : Dict α β) : List α :=
  d.entries.map (·.1)

def values (d : Dict α β) : List β :=
  d.entries.map (·.2)

instance : EmptyCollection (Dict α β) := ⟨empty⟩

instance : Inhabited (Dict α β) := ⟨empty⟩

instance [DecidableEq α] [DecidableEq β] : DecidableEq (Dict α β) := fun d e =>
  if h : d.entries = e.entries then
    isTrue (by cases d; cases e; cases h; rfl)
  else isFalse (fun he => h (by rw [he]))

/-! ## Counting -/

/-- One more occurrence of `k`. -/
def increment (d : Dict α Nat) (k : α) : Dict α Nat :=
  d.alter k fun n => some (n.getD 0 + 1)

/-- How often each key occurs in a list. -/
def countAll (keys : List α) : Dict α Nat :=
  keys.foldl increment empty

/-- One occurrence of `k` fewer; the last one takes the entry away. -/
def decrement (d : Dict α Nat) (k : α) : Dict α Nat :=
  d.alter k fun n => match n with
    | some (m + 2) => some (m + 1)
    | _ => none

end Dict
end LogLens

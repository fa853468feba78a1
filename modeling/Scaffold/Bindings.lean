namespace Scaffold

structure Bindings (α : Type) where
  entries : List (String × α)
  nodup : (entries.map Prod.fst).Nodup
  deriving DecidableEq

namespace Bindings

variable {α β ε : Type}

def empty : Bindings α := ⟨[], List.nodup_nil⟩

instance : EmptyCollection (Bindings α) := ⟨empty⟩

instance : Inhabited (Bindings α) := ⟨empty⟩

def find (k : String) : List (String × α) → Option α
  | [] => none
  | e :: es => if e.1 = k then some e.2 else find k es

def get? (b : Bindings α) (k : String) : Option α :=
  find k b.entries

def put (k : String) (a : α) : List (String × α) → List (String × α)
  | [] => [(k, a)]
  | e :: es => if e.1 = k then (k, a) :: es else e :: put k a es

def drop (k : String) : List (String × α) → List (String × α)
  | [] => []
  | e :: es => if e.1 = k then es else e :: drop k es

theorem mem_keys_put (k x : String) (a : α) (es : List (String × α)) :
    x ∈ (put k a es).map Prod.fst ↔ x = k ∨ x ∈ es.map Prod.fst := by
  induction es with
  | nil => simp [put]
  | cons e es ih =>
    by_cases h : e.1 = k
    · simp [put, h]
    · simp only [put, h, if_false, List.map_cons, List.mem_cons, ih]
      grind

theorem nodup_put (k : String) (a : α) (es : List (String × α))
    (h : (es.map Prod.fst).Nodup) : ((put k a es).map Prod.fst).Nodup := by
  induction es with
  | nil => simp [put]
  | cons e es ih =>
    simp only [List.map_cons, List.nodup_cons] at h
    by_cases he : e.1 = k
    · subst he
      simpa [put] using h
    · simp only [put, he, if_false, List.map_cons, List.nodup_cons]
      refine ⟨fun hm => ?_, ih h.2⟩
      rcases (mem_keys_put k e.1 a es).1 hm with hk | hk
      · exact he hk
      · exact h.1 hk

theorem drop_sublist (k : String) (es : List (String × α)) : (drop k es).Sublist es := by
  induction es with
  | nil => exact List.Sublist.refl _
  | cons e es ih =>
    by_cases he : e.1 = k
    · simp [drop, he]
    · simpa [drop, he] using ih

def insert (b : Bindings α) (k : String) (a : α) : Bindings α :=
  ⟨put k a b.entries, nodup_put k a b.entries b.nodup⟩

def erase (b : Bindings α) (k : String) : Bindings α :=
  ⟨drop k b.entries, ((drop_sublist k b.entries).map Prod.fst).nodup b.nodup⟩

def insertAll (b : Bindings α) (es : List (String × α)) : Bindings α :=
  es.foldl (fun m e => m.insert e.1 e.2) b

def ofList (es : List (String × α)) : Bindings α :=
  empty.insertAll es

def merge (base upper : Bindings α) : Bindings α :=
  base.insertAll upper.entries

def eraseAll (b : Bindings α) (ks : List String) : Bindings α :=
  ks.foldl erase b

def mapEntries (f : α → Except ε β) : List (String × α) → Except ε (List (String × β))
  | [] => .ok []
  | e :: es =>
    match f e.2 with
    | .error x => .error x
    | .ok b =>
      match mapEntries f es with
      | .error x => .error x
      | .ok bs => .ok ((e.1, b) :: bs)

theorem keys_mapEntries (f : α → Except ε β) (es : List (String × α)) (bs : List (String × β))
    (h : mapEntries f es = .ok bs) : bs.map Prod.fst = es.map Prod.fst := by
  induction es generalizing bs with
  | nil => cases h; rfl
  | cons e es ih =>
    unfold mapEntries at h
    split at h
    · cases h
    · split at h
      · cases h
      · rename_i hr
        cases h
        simp [ih _ hr]

def mapM (f : α → Except ε β) (b : Bindings α) : Except ε (Bindings β) :=
  match h : mapEntries f b.entries with
  | .error x => .error x
  | .ok bs => .ok ⟨bs, by rw [keys_mapEntries f _ _ h]; exact b.nodup⟩

theorem find_put (k x : String) (a : α) (es : List (String × α)) :
    find x (put k a es) = if x = k then some a else find x es := by
  induction es with
  | nil => grind [put, find]
  | cons e es ih => grind [put, find]

theorem find_drop (k x : String) (es : List (String × α)) (h : (es.map Prod.fst).Nodup) :
    find x (drop k es) = if x = k then none else find x es := by
  induction es with
  | nil => simp [drop, find]
  | cons e es ih =>
    simp only [List.map_cons, List.nodup_cons] at h
    have hn : ∀ es : List (String × α), e.1 ∉ es.map Prod.fst → find e.1 es = none := by
      intro es hm
      induction es with
      | nil => rfl
      | cons d ds ihd => grind [find]
    grind [drop, find]

@[simp] theorem get?_empty (x : String) : (empty : Bindings α).get? x = none := rfl

theorem get?_insert (b : Bindings α) (k x : String) (a : α) :
    (b.insert k a).get? x = if x = k then some a else b.get? x :=
  find_put k x a b.entries

theorem get?_erase (b : Bindings α) (k x : String) :
    (b.erase k).get? x = if x = k then none else b.get? x :=
  find_drop k x b.entries b.nodup

end Bindings

end Scaffold

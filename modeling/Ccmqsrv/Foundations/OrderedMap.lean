import Mathlib.Order.Defs.LinearOrder
import Mathlib.Order.Lattice
import Mathlib.Data.List.Pairwise

/-!
# Maps kept in key order

An ordered map is the list of its entries, strictly increasing in the key.
Assignment inserts a new key at its place and overwrites an old one, so a
loop that assigns the entries of one map to another in turn rebuilds the list
of entries unchanged.
-/

namespace Ccmqsrv.Foundations

variable {K V : Type}

section Assign

variable [LinearOrder K]

/-- Entries strictly increasing in the key. -/
def KeySorted (entries : List (K × V)) : Prop :=
  entries.Pairwise fun left right => left.1 < right.1

instance (entries : List (K × V)) : Decidable (KeySorted entries) :=
  inferInstanceAs (Decidable (entries.Pairwise fun left right => left.1 < right.1))

/-- `entries[key] = value`. -/
def assign (key : K) (value : V) : List (K × V) → List (K × V)
  | [] => [(key, value)]
  | (other, old) :: rest =>
      if key < other then
        (key, value) :: (other, old) :: rest
      else if key = other then
        (key, value) :: rest
      else
        (other, old) :: assign key value rest

@[simp]
theorem keySorted_nil : KeySorted ([] : List (K × V)) :=
  List.Pairwise.nil

theorem keySorted_cons {entry : K × V} {rest : List (K × V)} :
    KeySorted (entry :: rest) ↔
      (∀ later ∈ rest, entry.1 < later.1) ∧ KeySorted rest :=
  List.pairwise_cons

theorem mem_assign {key : K} {value : V} {entry : K × V} :
    ∀ {entries : List (K × V)},
      entry ∈ assign key value entries → entry = (key, value) ∨ entry ∈ entries
  | [], member => by
      simpa [assign] using member
  | (other, old) :: rest, member => by
      unfold assign at member
      split at member
      · simpa using member
      · split at member
        · rcases List.mem_cons.mp member with new | later
          · exact Or.inl new
          · exact Or.inr (List.mem_cons_of_mem _ later)
        · rcases List.mem_cons.mp member with head | later
          · exact Or.inr (head ▸ List.mem_cons_self)
          · rcases mem_assign later with new | old
            · exact Or.inl new
            · exact Or.inr (List.mem_cons_of_mem _ old)

theorem KeySorted.assign (key : K) (value : V) :
    ∀ {entries : List (K × V)},
      KeySorted entries → KeySorted (assign key value entries)
  | [], _ => by
      simp [Foundations.assign, keySorted_cons]
  | (other, old) :: rest, sorted => by
      obtain ⟨below, restSorted⟩ := keySorted_cons.mp sorted
      unfold Foundations.assign
      split
      · rename_i less
        refine keySorted_cons.mpr ⟨fun later member => ?_, sorted⟩
        rcases List.mem_cons.mp member with head | inRest
        · exact head ▸ less
        · exact lt_trans less (below later inRest)
      · split
        · rename_i same
          exact keySorted_cons.mpr
            ⟨fun later member => same ▸ below later member, restSorted⟩
        · rename_i notLess different
          have greater : other < key :=
            lt_of_le_of_ne (not_lt.mp notLess) (Ne.symm different)
          refine keySorted_cons.mpr
            ⟨fun later member => ?_, restSorted.assign key value⟩
          rcases mem_assign member with new | inRest
          · exact new ▸ greater
          · exact below later inRest

/-- A key above all present ones is appended. -/
theorem assign_of_forall_lt {key : K} {value : V} :
    ∀ {entries : List (K × V)},
      (∀ entry ∈ entries, entry.1 < key) →
        assign key value entries = entries ++ [(key, value)]
  | [], _ => rfl
  | (other, old) :: rest, below => by
      have less : other < key := below (other, old) List.mem_cons_self
      have restBelow : ∀ entry ∈ rest, entry.1 < key :=
        fun entry member => below entry (List.mem_cons_of_mem _ member)
      simp [assign, not_lt_of_gt less, ne_of_gt less,
        assign_of_forall_lt restBelow]

/-- Assigning sorted entries one after another to a map that lies below them
appends them in order. -/
theorem foldl_assign_of_sorted :
    ∀ (entries done : List (K × V)),
      KeySorted (done ++ entries) →
        entries.foldl (fun current entry => assign entry.1 entry.2 current) done =
          done ++ entries
  | [], done, _ => by
      simp
  | entry :: rest, done, sorted => by
      have below : ∀ earlier ∈ done, earlier.1 < entry.1 := by
        intro earlier member
        exact (List.pairwise_append.mp sorted).2.2 earlier member entry
          List.mem_cons_self
      have appended : assign entry.1 entry.2 done = done ++ [entry] :=
        assign_of_forall_lt below
      rw [List.foldl_cons, appended, foldl_assign_of_sorted rest (done ++ [entry]) (by
        rw [List.append_assoc]
        exact sorted)]
      rw [List.append_assoc, List.singleton_append]

theorem assign_ne_nil (key : K) (value : V) (entries : List (K × V)) :
    assign key value entries ≠ [] := by
  cases entries with
  | nil =>
      simp [assign]
  | cons head rest =>
      unfold assign
      split
      · simp
      · split <;> simp

theorem foldl_assign_eq_nil :
    ∀ {entries done : List (K × V)},
      entries.foldl (fun current entry => assign entry.1 entry.2 current) done = [] ↔
        done = [] ∧ entries = []
  | [], done => by
      simp
  | entry :: rest, done => by
      rw [List.foldl_cons, foldl_assign_eq_nil]
      simp [assign_ne_nil]

/-- The value stored under a key. -/
def find (key : K) : List (K × V) → Option V
  | [] => none
  | (other, value) :: rest =>
      if key = other then some value else find key rest

theorem find_assign (key other : K) (value : V) :
    ∀ entries : List (K × V),
      find other (assign key value entries) =
        if other = key then some value else find other entries
  | [] => by
      simp [assign, find]
  | (head, old) :: rest => by
      unfold assign
      split
      · rfl
      · split
        · rename_i same
          subst same
          by_cases found : other = key <;> simp [find, found]
        · rename_i different
          unfold find
          rw [find_assign key other value rest]
          by_cases found : other = head
          · simp [found, Ne.symm different]
          · simp [found]

theorem mem_of_find {key : K} {value : V} :
    ∀ {entries : List (K × V)}, find key entries = some value → (key, value) ∈ entries
  | [], found => by
      cases found
  | (head, old) :: rest, found => by
      unfold find at found
      split at found
      · rename_i same
        cases found
        exact same ▸ List.mem_cons_self
      · exact List.mem_cons_of_mem _ (mem_of_find found)

/-- Assigning the value that is already there changes nothing. -/
theorem assign_of_find {key : K} {value : V} :
    ∀ {entries : List (K × V)}, KeySorted entries → find key entries = some value →
      assign key value entries = entries
  | [], _, found => by
      cases found
  | (head, old) :: rest, sorted, found => by
      obtain ⟨below, restSorted⟩ := keySorted_cons.mp sorted
      by_cases same : key = head
      · subst same
        have isOld : old = value := by
          simpa [find] using found
        simp [assign, isOld]
      · have inRest : find key rest = some value := by
          simpa [find, same] using found
        have greater : head < key := below (key, value) (mem_of_find inRest)
        have kept := assign_of_find restSorted inRest
        simp [assign, not_lt_of_gt greater, same, kept]

theorem find_of_mem {key : K} {value : V} :
    ∀ {entries : List (K × V)}, KeySorted entries → (key, value) ∈ entries →
      find key entries = some value
  | [], _, member => by
      cases member
  | (head, old) :: rest, sorted, member => by
      obtain ⟨below, restSorted⟩ := keySorted_cons.mp sorted
      rcases List.mem_cons.mp member with same | later
      · cases same
        simp [find]
      · have greater : head < key := below (key, value) later
        have kept := find_of_mem restSorted later
        simp [find, ne_of_gt greater, kept]

theorem find_filter_ne (key other : K) :
    ∀ entries : List (K × V),
      find other (entries.filter fun entry => entry.1 ≠ key) =
        if other = key then none else find other entries
  | [] => by
      simp [find]
  | (head, value) :: rest => by
      have tail := find_filter_ne key other rest
      by_cases dropped : head = key
      · subst dropped
        rw [List.filter_cons_of_neg (by simp), tail]
        by_cases found : other = head <;> simp [find, found]
      · rw [List.filter_cons_of_pos (by simpa using dropped)]
        unfold find
        rw [tail]
        by_cases found : other = head
        · subst found
          simp [dropped]
        · simp [found]

theorem mem_map_fst_iff {key : K} :
    ∀ {entries : List (K × V)},
      key ∈ entries.map Prod.fst ↔ (find key entries).isSome
  | [] => by
      simp [find]
  | (head, value) :: rest => by
      have tail : key ∈ rest.map Prod.fst ↔ (find key rest).isSome := mem_map_fst_iff
      by_cases found : key = head
      · simp [find, found]
      · simp [find, found, tail]

theorem mem_of_mem_foldl_assign {entry : K × V} :
    ∀ {entries done : List (K × V)},
      entry ∈ entries.foldl (fun current entry => assign entry.1 entry.2 current) done →
        entry ∈ done ∨ entry ∈ entries
  | [], _, member => Or.inl member
  | next :: rest, done, member => by
      rw [List.foldl_cons] at member
      rcases mem_of_mem_foldl_assign member with inDone | later
      · rcases mem_assign inDone with new | old
        · exact Or.inr (List.mem_cons.mpr (Or.inl new))
        · exact Or.inl old
      · exact Or.inr (List.mem_cons_of_mem _ later)

theorem keySorted_foldl_assign :
    ∀ (entries : List (K × V)) {done : List (K × V)}, KeySorted done →
      KeySorted (entries.foldl (fun current entry => assign entry.1 entry.2 current) done)
  | [], _, sorted => sorted
  | entry :: rest, _, sorted => by
      rw [List.foldl_cons]
      exact keySorted_foldl_assign rest (sorted.assign entry.1 entry.2)

end Assign

/-- A map whose entries are in strict key order. -/
structure OrderedMap (K V : Type) [LinearOrder K] where
  entries : List (K × V)
  sorted : KeySorted entries

namespace OrderedMap

variable [LinearOrder K]

@[ext]
theorem ext {left right : OrderedMap K V}
    (same : left.entries = right.entries) : left = right := by
  cases left
  cases right
  simpa using same

instance [DecidableEq V] : DecidableEq (OrderedMap K V) := fun left right =>
  decidable_of_iff (left.entries = right.entries)
    ⟨OrderedMap.ext, congrArg OrderedMap.entries⟩

/-- The map a loop over `entries` builds by assigning each in turn. -/
def ofEntries (entries : List (K × V)) : OrderedMap K V :=
  ⟨entries.foldl (fun current entry => Foundations.assign entry.1 entry.2 current) [],
    keySorted_foldl_assign entries keySorted_nil⟩

@[simp]
theorem entries_ofEntries_nil : (ofEntries ([] : List (K × V))).entries = [] :=
  rfl

theorem entries_ofEntries {entries : List (K × V)} (sorted : KeySorted entries) :
    (ofEntries entries).entries = entries :=
  foldl_assign_of_sorted entries [] sorted

/-- Rebuilding a map from its own entries gives it back. -/
@[simp]
theorem ofEntries_entries (map : OrderedMap K V) : ofEntries map.entries = map :=
  OrderedMap.ext (entries_ofEntries map.sorted)

/-- The map without entries. -/
def empty : OrderedMap K V :=
  ⟨[], keySorted_nil⟩

/-- The value under a key, if there is an entry for it. -/
def lookup (map : OrderedMap K V) (key : K) : Option V :=
  find key map.entries

/-- `map[key] = value`. -/
def insert (map : OrderedMap K V) (key : K) (value : V) : OrderedMap K V :=
  ⟨Foundations.assign key value map.entries, map.sorted.assign key value⟩

/-- The map without the entry for a key. -/
def erase (map : OrderedMap K V) (key : K) : OrderedMap K V :=
  ⟨map.entries.filter fun entry => entry.1 ≠ key, map.sorted.filter _⟩

def keys (map : OrderedMap K V) : List K :=
  map.entries.map Prod.fst

@[simp]
theorem lookup_empty (key : K) : (empty : OrderedMap K V).lookup key = none :=
  rfl

theorem lookup_insert (map : OrderedMap K V) (key other : K) (value : V) :
    (map.insert key value).lookup other =
      if other = key then some value else map.lookup other :=
  find_assign key other value map.entries

@[simp]
theorem lookup_insert_self (map : OrderedMap K V) (key : K) (value : V) :
    (map.insert key value).lookup key = some value := by
  rw [lookup_insert, if_pos rfl]

theorem lookup_insert_of_ne (map : OrderedMap K V) {key other : K} (value : V)
    (different : other ≠ key) : (map.insert key value).lookup other = map.lookup other := by
  rw [lookup_insert, if_neg different]

theorem lookup_erase (map : OrderedMap K V) (key other : K) :
    (map.erase key).lookup other = if other = key then none else map.lookup other :=
  find_filter_ne key other map.entries

@[simp]
theorem lookup_erase_self (map : OrderedMap K V) (key : K) :
    (map.erase key).lookup key = none := by
  rw [lookup_erase, if_pos rfl]

theorem lookup_erase_of_ne (map : OrderedMap K V) {key other : K}
    (different : other ≠ key) : (map.erase key).lookup other = map.lookup other := by
  rw [lookup_erase, if_neg different]

theorem insert_of_lookup {map : OrderedMap K V} {key : K} {value : V}
    (found : map.lookup key = some value) : map.insert key value = map :=
  OrderedMap.ext (assign_of_find map.sorted found)

theorem mem_entries_iff {map : OrderedMap K V} {key : K} {value : V} :
    (key, value) ∈ map.entries ↔ map.lookup key = some value :=
  ⟨find_of_mem map.sorted, mem_of_find⟩

theorem nodup_entries (map : OrderedMap K V) : map.entries.Nodup :=
  map.sorted.imp fun less same => absurd (congrArg Prod.fst same) (ne_of_lt less)

/-- A map is what is found in it. -/
theorem ext_lookup {left right : OrderedMap K V}
    (same : ∀ key, left.lookup key = right.lookup key) : left = right := by
  have sameMembers : ∀ entry, entry ∈ left.entries ↔ entry ∈ right.entries := by
    intro entry
    rw [mem_entries_iff, mem_entries_iff, same]
  have permuted : left.entries.Perm right.entries :=
    (List.perm_ext_iff_of_nodup left.nodup_entries right.nodup_entries).mpr sameMembers
  apply OrderedMap.ext
  refine permuted.eq_of_pairwise ?_ left.sorted right.sorted
  intro _ _ _ _ less greater
  exact absurd less (lt_asymm greater)

/-- The last assignment counts. -/
theorem insert_insert (map : OrderedMap K V) (key : K) (first second : V) :
    (map.insert key first).insert key second = map.insert key second := by
  apply ext_lookup
  intro other
  by_cases same : other = key
  · rw [same, lookup_insert_self, lookup_insert_self]
  · rw [lookup_insert_of_ne _ _ same, lookup_insert_of_ne _ _ same,
      lookup_insert_of_ne _ _ same]

theorem mem_keys_iff {map : OrderedMap K V} {key : K} :
    key ∈ map.keys ↔ (map.lookup key).isSome :=
  mem_map_fst_iff

theorem mem_keys_insert {map : OrderedMap K V} {key other : K} {value : V} :
    other ∈ (map.insert key value).keys ↔ other = key ∨ other ∈ map.keys := by
  rw [mem_keys_iff, mem_keys_iff, lookup_insert]
  by_cases same : other = key <;> simp [same]

theorem mem_of_mem_ofEntries {entries : List (K × V)} {entry : K × V}
    (member : entry ∈ (ofEntries entries).entries) : entry ∈ entries := by
  rcases mem_of_mem_foldl_assign member with inNil | inEntries
  · cases inNil
  · exact inEntries

end OrderedMap

end Ccmqsrv.Foundations

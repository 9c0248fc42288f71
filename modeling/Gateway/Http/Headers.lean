import Gateway.Http.Header

/-! Header multimaps. Names stand in the order in which each first appeared, and the values of one
name in the order in which they came. `values` is the view that the operations are stated on. -/
namespace Gateway.Http

/-- A header section: for each name present, its values. -/
structure Headers where
  groups : List (HeaderName × List HeaderValue)
  nodup : (groups.map Prod.fst).Nodup
  nonempty : ∀ g ∈ groups, g.2 ≠ []

namespace Headers

/-- Changes the values of one name, giving it values if it had none. -/
def upsertGroups (n : HeaderName) (f : List HeaderValue → List HeaderValue) :
    List (HeaderName × List HeaderValue) → List (HeaderName × List HeaderValue)
  | [] => [(n, f [])]
  | (m, vs) :: rest => if m = n then (m, f vs) :: rest else (m, vs) :: upsertGroups n f rest

theorem mem_names_upsertGroups {n m : HeaderName} {f : List HeaderValue → List HeaderValue}
    {gs : List (HeaderName × List HeaderValue)}
    (h : m ∈ (upsertGroups n f gs).map Prod.fst) : m = n ∨ m ∈ gs.map Prod.fst := by
  induction gs with
  | nil => simpa [upsertGroups] using h
  | cons g rest ih =>
    simp only [upsertGroups] at h
    split at h <;> simp only [List.map_cons, List.mem_cons] at h ⊢
    · exact .inr h
    · rcases h with h | h
      · exact .inr (.inl h)
      · exact (ih h).imp id .inr

theorem nodup_upsertGroups (n : HeaderName) (f : List HeaderValue → List HeaderValue)
    {gs : List (HeaderName × List HeaderValue)} (h : (gs.map Prod.fst).Nodup) :
    ((upsertGroups n f gs).map Prod.fst).Nodup := by
  induction gs with
  | nil => simp [upsertGroups]
  | cons g rest ih =>
    simp only [List.map_cons, List.nodup_cons] at h
    simp only [upsertGroups]
    split <;> rename_i hg
    · simpa using h
    · simp only [List.map_cons, List.nodup_cons]
      exact ⟨fun hm => (mem_names_upsertGroups hm).elim hg h.1, ih h.2⟩

theorem nonempty_upsertGroups (n : HeaderName) {f : List HeaderValue → List HeaderValue}
    (hf : ∀ vs, f vs ≠ []) {gs : List (HeaderName × List HeaderValue)} (h : ∀ g ∈ gs, g.2 ≠ []) :
    ∀ g ∈ upsertGroups n f gs, g.2 ≠ [] := by
  induction gs with
  | nil => simp [upsertGroups, hf]
  | cons g rest ih =>
    simp only [upsertGroups]
    split
    · simp only [List.mem_cons, forall_eq_or_imp] at h ⊢
      exact ⟨hf _, h.2⟩
    · simp only [List.mem_cons, forall_eq_or_imp] at h ⊢
      exact ⟨h.1, ih h.2⟩

def empty : Headers := ⟨[], by simp, by simp⟩

instance : EmptyCollection Headers := ⟨empty⟩

instance : Inhabited Headers := ⟨empty⟩

instance : DecidableEq Headers := fun a b =>
  if h : a.groups = b.groups then .isTrue (by cases a; cases b; simp_all)
  else .isFalse fun e => h (e ▸ rfl)

/-- All values of a name, in order. -/
def values (h : Headers) (n : HeaderName) : List HeaderValue := (h.groups.lookup n).getD []

/-- The first value of a name. -/
def get? (h : Headers) (n : HeaderName) : Option HeaderValue := (h.values n).head?

/-- The octets of the first value of a name; none counts as the empty string. -/
def firstBytes (h : Headers) (n : HeaderName) : Bytes := ((h.get? n).map (·.bytes)).getD []

def contains (h : Headers) (n : HeaderName) : Bool := !(h.values n).isEmpty

/-- Adds a value after those that the name has. -/
def append (h : Headers) (n : HeaderName) (v : HeaderValue) : Headers :=
  ⟨upsertGroups n (· ++ [v]) h.groups, nodup_upsertGroups n _ h.nodup,
    nonempty_upsertGroups n (by simp) h.nonempty⟩

/-- Makes a value the only one of its name. -/
def insert (h : Headers) (n : HeaderName) (v : HeaderValue) : Headers :=
  ⟨upsertGroups n (fun _ => [v]) h.groups, nodup_upsertGroups n _ h.nodup,
    nonempty_upsertGroups n (by simp) h.nonempty⟩

/-- Keeps the names that satisfy a test, with all their values. -/
def filter (h : Headers) (keep : HeaderName → Bool) : Headers :=
  ⟨h.groups.filter (keep ·.1),
    h.nodup.sublist (List.filter_sublist.map _),
    fun g hg => h.nonempty g (List.mem_filter.1 hg).1⟩

/-- Removes all values of a name. -/
def erase (h : Headers) (n : HeaderName) : Headers := h.filter (· != n)

/-- The field lines, name by name. -/
def fields (h : Headers) : List (HeaderName × HeaderValue) :=
  h.groups.flatMap fun (n, vs) => vs.map (n, ·)

/-- Appends field lines in the order given. -/
def appendFields (h : Headers) (fs : List (HeaderName × HeaderValue)) : Headers :=
  fs.foldl (fun h (n, v) => h.append n v) h

def ofFields (fs : List (HeaderName × HeaderValue)) : Headers := empty.appendFields fs

/-- The lines of a name as they are taken out of a section: the name stands with the first value. -/
def drainedGroup : HeaderName × List HeaderValue → List (Option HeaderName × HeaderValue)
  | (_, []) => []
  | (n, v :: vs) => (some n, v) :: vs.map (none, ·)

def drained (h : Headers) : List (Option HeaderName × HeaderValue) := h.groups.flatMap drainedGroup

/-- Appends lines that were taken out of a section. One without a name is of the last name; while
there is none, it is left out. -/
def appendDrained (h : Headers) (last : Option HeaderName) :
    List (Option HeaderName × HeaderValue) → Headers
  | [] => h
  | (name, v) :: rest =>
    match name.or last with
    | some n => (h.append n v).appendDrained (some n) rest
    | none => h.appendDrained none rest

/-- The names present, each once. -/
def names (h : Headers) : List HeaderName := h.groups.map Prod.fst

/-- The values of a name that can be read as text. -/
def texts (h : Headers) (n : HeaderName) : List Bytes := (h.values n).filterMap (·.text?)

/-- The first value of a name, when it can be read as text. -/
def text? (h : Headers) (n : HeaderName) : Option Bytes := (h.get? n).bind (·.text?)

/-- The comma-separated elements of the readable values of a name, trimmed. -/
def elements (h : Headers) (n : HeaderName) : List Bytes :=
  (h.texts n).flatMap fun t => (Bytes.splitOn 44 t).map Bytes.trim

/-- The elements of the readable values of a name that are not blank. -/
def tokens (h : Headers) (n : HeaderName) : List Bytes :=
  (h.elements n).filter fun t => !t.isEmpty

/-- Some element of the name's readable values is the word, in any case. -/
def hasToken (h : Headers) (n : HeaderName) (word : Bytes) : Bool :=
  (h.elements n).any fun t => Bytes.eqIgnoreCase t word

theorem lookup_upsertGroups (n m : HeaderName) (f : List HeaderValue → List HeaderValue)
    (gs : List (HeaderName × List HeaderValue)) :
    (upsertGroups n f gs).lookup m =
      if m = n then some (f ((gs.lookup n).getD [])) else gs.lookup m := by
  induction gs with
  | nil =>
    by_cases hm : m = n
    · simp [upsertGroups, hm]
    · have : (m == n) = false := beq_eq_false_iff_ne.2 hm
      simp [upsertGroups, List.lookup_cons, this, hm]
  | cons g rest ih =>
    obtain ⟨k, vs⟩ := g
    by_cases hk : k = n
    · subst hk
      by_cases hm : m = k
      · simp [upsertGroups, hm]
      · have : (m == k) = false := beq_eq_false_iff_ne.2 hm
        simp [upsertGroups, List.lookup_cons, this, hm]
    · have hnk : (n == k) = false := beq_eq_false_iff_ne.2 (Ne.symm hk)
      by_cases hm : m = k
      · subst hm
        simp [upsertGroups, hk]
      · have hmk : (m == k) = false := beq_eq_false_iff_ne.2 hm
        simp only [upsertGroups, hk, if_false, List.lookup_cons, hmk, hnk, ih]

@[simp] theorem values_empty (n : HeaderName) : (∅ : Headers).values n = [] := rfl

@[simp] theorem values_append (h : Headers) (n m : HeaderName) (v : HeaderValue) :
    (h.append n v).values m = if m = n then h.values n ++ [v] else h.values m := by
  simp only [values, append, lookup_upsertGroups]
  split <;> rfl

@[simp] theorem values_insert (h : Headers) (n m : HeaderName) (v : HeaderValue) :
    (h.insert n v).values m = if m = n then [v] else h.values m := by
  simp only [values, insert, lookup_upsertGroups]
  split <;> rfl

@[simp] theorem values_filter (h : Headers) (keep : HeaderName → Bool) (n : HeaderName) :
    (h.filter keep).values n = if keep n then h.values n else [] := by
  simp only [values, filter]
  induction h.groups with
  | nil => simp
  | cons g rest ih =>
    obtain ⟨k, vs⟩ := g
    by_cases hk : keep k = true
    · by_cases hn : n = k
      · subst hn
        simp [hk]
      · have : (n == k) = false := beq_eq_false_iff_ne.2 hn
        simpa [hk, List.lookup_cons, this] using ih
    · by_cases hn : n = k
      · subst hn
        simp only [List.filter_cons, hk] at ih ⊢
        simpa [hk] using ih
      · have : (n == k) = false := beq_eq_false_iff_ne.2 hn
        simpa [hk, List.lookup_cons, this] using ih

@[simp] theorem values_erase (h : Headers) (n m : HeaderName) :
    (h.erase n).values m = if m = n then [] else h.values m := by
  simp only [erase, values_filter]
  by_cases hm : m = n <;> simp [hm]

theorem contains_iff (h : Headers) (n : HeaderName) : h.contains n = true ↔ h.values n ≠ [] := by
  simp [contains]

end Headers

end Gateway.Http

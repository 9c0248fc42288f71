import Gateway.Proofs.Http.Fields
import Gateway.Proofs.Text.Elements
import Gateway.Proxy.Sendfile

/-! The length that a file's answer states, and the octets that it sends. Both agree for the file
and for a part of it; an answer without the file still states the file's size. -/
namespace Gateway.Proxy
open Http

section Ranges
variable {size : Nat} {spec : RangeSpec} {r s : ByteRange} {rs : List ByteRange} {value : Bytes}

theorem RangeSpec.bounds_of_resolve? (h : spec.resolve? size = some r) :
    r.first ≤ r.last ∧ r.last ≤ size - 1 := by
  unfold resolve? at h
  obtain ⟨hrange, hordered⟩ := Option.filter_eq_some_iff.mp h
  refine ⟨of_decide_eq_true hordered, ?_⟩
  cases spec with
  | between first last =>
    obtain rfl := Option.some.inj hrange
    exact Nat.min_le_right last (size - 1)
  | starting first =>
    obtain rfl := Option.some.inj hrange
    exact Nat.le_refl _
  | ending count =>
    dsimp only at hrange
    split_ifs at hrange
    obtain rfl := Option.some.inj hrange
    exact Nat.le_refl _

theorem mem_of_mapM {α β : Type} {f : α → Option β} {xs : List α} {ys : List β}
    (h : xs.mapM f = some ys) : ∀ y ∈ ys, ∃ x ∈ xs, f x = some y := by
  induction xs generalizing ys with
  | nil =>
    obtain rfl : ys = [] := by simpa using h.symm
    exact nofun
  | cons x xs ih =>
    rw [List.mapM_cons] at h
    obtain ⟨z, hz, h⟩ := Option.bind_eq_some_iff.mp h
    obtain ⟨zs, hzs, h⟩ := Option.bind_eq_some_iff.mp h
    obtain rfl := Option.some.inj h
    intro y hy
    rcases List.mem_cons.mp hy with rfl | hy
    · exact ⟨x, List.mem_cons_self, hz⟩
    · obtain ⟨w, hw, hfound⟩ := ih hzs y hy
      exact ⟨w, List.mem_cons_of_mem x hw, hfound⟩

theorem ne_nil_of_mapM {α β : Type} {f : α → Option β} {xs : List α} {ys : List β}
    (h : xs.mapM f = some ys) (hxs : xs ≠ []) : ys ≠ [] := by
  obtain ⟨x, xs, rfl⟩ := List.exists_cons_of_ne_nil hxs
  rw [List.mapM_cons] at h
  obtain ⟨y, -, h⟩ := Option.bind_eq_some_iff.mp h
  obtain ⟨ys, -, h⟩ := Option.bind_eq_some_iff.mp h
  obtain rfl := Option.some.inj h
  exact List.cons_ne_nil y ys

namespace ByteRange

/-- A value that can be read asks for something. -/
theorem select?_ne_nil (h : select? value size = some rs) : rs ≠ [] := by
  unfold select? at h
  obtain ⟨specs, hspecs, h⟩ := Option.bind_eq_some_iff.mp h
  obtain ⟨hresolved, -⟩ := Option.filter_eq_some_iff.mp h
  unfold RangeSpec.parse? at hspecs
  dsimp only at hspecs
  split_ifs at hspecs
  exact ne_nil_of_mapM hresolved (ne_nil_of_mapM hspecs (Bytes.splitOn_ne_nil _ _))

theorem select?_spec (h : select? value size = some rs) :
    (∀ r ∈ rs, r.first ≤ r.last ∧ r.last ≤ size - 1) ∧ areDisjoint rs = true := by
  unfold select? at h
  obtain ⟨specs, -, h⟩ := Option.bind_eq_some_iff.mp h
  obtain ⟨hresolved, hdisjoint⟩ := Option.filter_eq_some_iff.mp h
  refine ⟨?_, hdisjoint⟩
  intro r hr
  obtain ⟨spec, -, hspec⟩ := mem_of_mapM hresolved r hr
  exact RangeSpec.bounds_of_resolve? hspec

/-- The number of octets that a selected range has of its content. -/
theorem length_part {content : Bytes} (h : select? value content.length = some [r]) :
    ((content.drop r.first).take (r.last - r.first + 1)).length =
      if content.length = 0 then 0 else r.last - r.first + 1 := by
  obtain ⟨hordered, hlast⟩ := (select?_spec h).1 r List.mem_cons_self
  rw [List.length_take, List.length_drop]
  split_ifs with hempty
  · omega
  · omega

/-- Nothing has two ranges without a common octet in an empty content. -/
theorem select?_empty : select? value 0 ≠ some (r :: s :: rs) := by
  intro h
  obtain ⟨hbounds, hdisjoint⟩ := select?_spec h
  obtain ⟨hr, hrlast⟩ := hbounds r List.mem_cons_self
  obtain ⟨hs, hslast⟩ := hbounds s (List.mem_cons_of_mem r List.mem_cons_self)
  have hoverlap : r.overlaps s = true := by
    unfold overlaps
    simp only [Bool.and_eq_true, decide_eq_true_eq]
    omega
  simp [areDisjoint, hoverlap] at hdisjoint

end ByteRange

end Ranges

/-- The request gets the file, or the one part of it that its `Range` selects. -/
structure Serves (request : Headers) (size modified : Nat) : Prop where
  conditions : conditionStatus? request modified = none
  range : ∀ value ∈ request.text? .range, ∃ r, ByteRange.select? value size = some [r]

structure SelectsSeveral (request : Headers) (size modified : Nat) : Prop where
  conditions : conditionStatus? request modified = none
  range : ∃ value ∈ request.text? .range, ∃ r s rest,
    ByteRange.select? value size = some (r :: s :: rest)

/-- The answers to a request for a file. Octets of the file come with their number; an answer
without the file says nothing of a length. -/
inductive Answers (request : Headers) (content : Bytes) (modified : Nat)
    (file : Response ResponseHead) : Prop
  | served (hserves : Serves request content.length modified)
      (hstatus : file.head.status = .ok ∨ file.head.status = .partialContent) (sent : Bytes)
      (hlength : file.head.headers.values .contentLength = [.ofNat sent.length])
      (hsent : file.body.content? = some sent)
  | refused (hserves : ¬ Serves request content.length modified)
      (hseveral : ¬ SelectsSeveral request content.length modified)
      (hstatus : file.head.status ≠ .ok ∧ file.head.status ≠ .partialContent)
      (hlength : file.head.headers.values .contentLength = [])
      (hsent : file.body.content? = some [])
  | several (hserves : ¬ Serves request content.length modified)
      (hseveral : SelectsSeveral request content.length modified)
      (hstatus : file.head.status = .rangeNotSatisfiable)
      (hlength : file.head.headers.values .contentLength = [])
      (hsent : file.body.content? = some multipartRefusal)

section Files
variable {files : Files} {path : Bytes} {request : Headers} {content : Bytes} {modified : Nat}

theorem values_withField_of_ne {h : Headers} {n m : HeaderName} (value : Bytes) (hne : m ≠ n) :
    (withField h n value).values m = h.values m := by
  unfold withField
  split
  · rw [Headers.values_append, if_neg hne]
  · rfl

theorem content?_fileBody (content : Bytes) : (fileBody false content).content? = some content := by
  unfold fileBody
  by_cases hempty : content.isEmpty = true
  · rw [if_pos hempty, List.isEmpty_iff.mp hempty]
    rfl
  · rw [if_neg hempty]
    simp [Body.content?, Body.ofPolls, Body.contentOf?]

theorem conditionStatus?_eq_some {status : Status}
    (h : conditionStatus? request modified = some status) :
    status = .preconditionFailed ∨ status = .notModified := by
  unfold conditionStatus? at h
  split_ifs at h
  · exact .inl (Option.some.inj h).symm
  · exact .inr (Option.some.inj h).symm

theorem serves_iff {value : Bytes} (size : Nat)
    (hconditions : conditionStatus? request modified = none)
    (hrange : request.text? .range = some value) : Serves request size modified ↔
      ∃ r, ByteRange.select? value size = some [r] := by
  constructor
  · intro hserves
    exact hserves.range value hrange
  · intro hone
    refine ⟨hconditions, ?_⟩
    intro other hother
    obtain rfl := Option.some.inj (hrange.symm.trans hother)
    exact hone

theorem selectsSeveral_iff {value : Bytes} (size : Nat)
    (hconditions : conditionStatus? request modified = none)
    (hrange : request.text? .range = some value) : SelectsSeveral request size modified ↔
      ∃ r s rest, ByteRange.select? value size = some (r :: s :: rest) := by
  constructor
  · rintro ⟨-, other, hother, hseveral⟩
    obtain rfl := Option.some.inj (hrange.symm.trans hother)
    exact hseveral
  · intro hseveral
    exact ⟨hconditions, value, hrange, hseveral⟩

theorem answers_serveContent (hconditions : conditionStatus? request modified = none) :
    Answers request content modified (serveContent false request path content modified) := by
  unfold serveContent
  dsimp only
  generalize hcommon : withField (withField (withField ∅ .contentType (mediaType path))
    .acceptRanges (.ofLatin1 "bytes")) .lastModified (Date.ofSeconds modified).text = common
  have hnothing : common.values .contentLength = [] := by
    rw [← hcommon, values_withField_of_ne _ (by decide), values_withField_of_ne _ (by decide),
      values_withField_of_ne _ (by decide), Headers.values_empty]
  have hranged (range : Bytes) :
      (withField common .contentRange range).values .contentLength = [] := by
    rw [values_withField_of_ne _ (by decide), hnothing]
  cases hrange : request.text? .range with
  | none =>
    apply Answers.served ⟨hconditions, ?_⟩ (.inl rfl) content
    · dsimp only
      rw [Headers.values_append, if_pos rfl, hnothing]
      rfl
    · exact content?_fileBody content
    · rw [hrange]
      exact nofun
  | some value =>
    have hserves := serves_iff content.length hconditions hrange
    have hseveral := selectsSeveral_iff content.length hconditions hrange
    dsimp only
    cases hselect : ByteRange.select? value content.length with
    | none =>
      rw [hselect] at hserves hseveral
      apply Answers.refused
      · rw [hserves]
        exact nofun
      · rw [hseveral]
        exact nofun
      · exact ⟨nofun, nofun⟩
      · exact hranged _
      · rfl
    | some ranges =>
      rw [hselect] at hserves hseveral
      match ranges, hselect with
      | [], hselect => exact absurd rfl (ByteRange.select?_ne_nil hselect)
      | [r], hselect =>
        have hpart := ByteRange.length_part hselect
        apply Answers.served (hserves.mpr ⟨r, rfl⟩) (.inr rfl)
          ((content.drop r.first).take (r.last - r.first + 1))
        · dsimp only
          rw [Headers.values_append, if_pos rfl, hranged, hpart]
          rfl
        · exact content?_fileBody _
      | r :: s :: rest, hselect =>
        apply Answers.several
        · rw [hserves]
          exact nofun
        · exact hseveral.mpr ⟨r, s, rest, rfl⟩
        · rfl
        · exact hranged _
        · rfl

variable (request) in
theorem answers_serveFile (hfile : files.lookup path = .ok (.file content modified)) :
    Answers request content modified (serveFile files path false request) := by
  unfold serveFile
  dsimp only
  rw [hfile]
  dsimp only
  cases hconditions : conditionStatus? request modified with
  | none => exact answers_serveContent hconditions
  | some status =>
    have hunmet : conditionStatus? request modified ≠ none := by
      rw [hconditions]
      exact nofun
    apply Answers.refused (fun hserves => hunmet hserves.conditions)
      (fun hseveral => hunmet hseveral.conditions)
    · rcases conditionStatus?_eq_some hconditions with rfl | rfl
      · exact ⟨nofun, nofun⟩
      · exact ⟨nofun, nofun⟩
    · rfl
    · rfl

end Files

/-- The application's headers that the file's answer does not have, and then the file's. -/
def underFile (app : Headers) (size : Option Nat) (file : Headers) : Headers :=
  ((withSize app size).filter (!file.contains ·)).appendFields file.fields

theorem values_withSize (app : Headers) (size : Option Nat) (n : HeaderName) :
    (withSize app size).values n =
      if n = .contentLength then (size.map HeaderValue.ofNat).toList
      else if n = .xSendfile then []
      else app.values n := by
  cases size with
  | none => simp [withSize]
  | some size => simp [withSize]

theorem get?_withSize (app : Headers) (size : Option Nat) {n : HeaderName}
    (hlength : n ≠ .contentLength) (hfile : n ≠ .xSendfile) :
    (withSize app size).get? n = app.get? n := by
  unfold Headers.get?
  rw [values_withSize, if_neg hlength, if_neg hfile]

theorem mergeHeaders_eq (app : Headers) (size : Option Nat) (file : Headers) :
    mergeHeaders app size file = match app.get? .contentType with
      | some v => (underFile app size file).insert .contentType v
      | none => underFile app size file := by
  have hsized := get?_withSize app size (n := .contentType) (by decide) (by decide)
  unfold mergeHeaders underFile
  cases happ : app.get? .contentType with
  | none =>
    rw [happ] at hsized
    simp only [hsized, Headers.foldl_erase_names, Headers.appendDrained_drained]
  | some v =>
    rw [happ] at hsized
    simp only [hsized, Headers.foldl_erase_names, Headers.appendDrained_drained]

theorem values_underFile (app : Headers) (size : Option Nat) (file : Headers) (n : HeaderName) :
    (underFile app size file).values n =
      if file.contains n then file.values n else (withSize app size).values n := by
  unfold underFile
  rw [Headers.values_appendFields, Headers.values_fields, Headers.values_filter]
  cases hfile : file.contains n with
  | true => simp
  | false =>
    have hnone : file.values n = [] := by simpa [Headers.contains] using hfile
    simp [hnone]

/-- The values of a name in a file's answer, unless it is the content type: the file's own if it has
any, else the application's, and the file's size for the length. -/
theorem values_mergeHeaders (app : Headers) (size : Option Nat) (file : Headers) {n : HeaderName}
    (hn : n ≠ .contentType) : (mergeHeaders app size file).values n =
      if file.contains n then file.values n else (withSize app size).values n := by
  rw [mergeHeaders_eq]
  split
  · rw [Headers.values_insert, if_neg hn, values_underFile]
  · exact values_underFile app size file n

variable {files : Files} {path : HeaderValue} {request : Headers} {content : Bytes} {modified : Nat}
  {app : Response ResponseHead}

/-- The answer in place of an application's that names a file which can be read. -/
theorem sendfile_eq (hmarked : app.head.headers.get? .xSendfile = some path)
    (hfile : files.lookup path.bytes = .ok (.file content modified)) :
    sendfile true files false request app =
      let file := serveFile files path.bytes false request
      ⟨⟨file.head.status, mergeHeaders app.head.headers (some content.length) file.head.headers⟩,
        file.body⟩ := by
  have hsize : fileSize? files path.bytes = some content.length := by
    unfold fileSize?
    rw [hfile]
  unfold sendfile substitute
  rw [hmarked]
  show (⟨⟨_, mergeHeaders _ (fileSize? files path.bytes) _⟩, _⟩ : Response ResponseHead) = _
  rw [hsize]
  rfl

variable (request) in
/-- A file's answer always states a length: that of what is sent when this is the file or one part of
it, and else the file's. So both lengths are equal only when the file or one part of it is sent, or
the file happens to be as long as what is sent in its place. -/
theorem statedLength_eq_iff (hmarked : app.head.headers.get? .xSendfile = some path)
    (hfile : files.lookup path.bytes = .ok (.file content modified)) :
    let answer := sendfile true files false request app
    ∃ stated sent, answer.head.headers.values .contentLength = [.ofNat stated] ∧
      answer.body.content? = some sent ∧
      ((answer.head.status = .ok ∨ answer.head.status = .partialContent) ↔
        Serves request content.length modified) ∧
      (¬ Serves request content.length modified → stated = content.length) ∧
      (stated = sent.length ↔
        Serves request content.length modified ∨ content = [] ∨
          SelectsSeveral request content.length modified ∧
            content.length = multipartRefusal.length) := by
  have hvalue (n : Nat) : ([.ofNat n] : List HeaderValue) ≠ [] := List.cons_ne_nil _ _
  rw [sendfile_eq hmarked hfile]
  dsimp only
  rw [values_mergeHeaders _ _ _ (by decide), values_withSize, if_pos rfl]
  cases answers_serveFile request hfile with
  | served hserves hstatus sent hlength hsent =>
    have hcontains := (Headers.contains_iff _ _).mpr (hlength ▸ hvalue sent.length)
    rw [if_pos hcontains]
    refine ⟨sent.length, sent, hlength, hsent, ?_, ?_, ?_⟩
    · exact iff_of_true hstatus hserves
    · exact absurd hserves
    · exact iff_of_true rfl (.inl hserves)
  | refused hserves hseveral hstatus hlength hsent =>
    have hmissing := (Headers.contains_iff _ _).not.mpr (not_not.mpr hlength)
    rw [if_neg hmissing]
    refine ⟨content.length, [], rfl, hsent, ?_, ?_, ?_⟩
    · exact iff_of_false (not_or.mpr hstatus) hserves
    · intro _
      rfl
    · simp [hserves, hseveral]
  | several hserves hseveral hstatus hlength hsent =>
    have hmissing := (Headers.contains_iff _ _).not.mpr (not_not.mpr hlength)
    have hne : content ≠ [] := by
      rintro rfl
      obtain ⟨-, value, -, r, s, rest, hselect⟩ := hseveral
      exact ByteRange.select?_empty hselect
    rw [if_neg hmissing]
    refine ⟨content.length, multipartRefusal, rfl, hsent, ?_, ?_, ?_⟩
    · rw [hstatus]
      exact iff_of_false (by decide) hserves
    · intro _
      rfl
    · simp [hserves, hseveral, hne]

theorem statedLength_of_one_range :
    let files : Files :=
      ⟨[([.ofLatin1 "a.txt"], .file (.ofLatin1 "0123456789") 1700000000)], []⟩
    let request := Headers.ofFields [(.range, .ofLatin1 "bytes=2-5" (by decide))]
    let marked := Headers.ofFields [(.xSendfile, .ofLatin1 "a.txt" (by decide)),
      (.contentLength, .ofLatin1 "8" (by decide))]
    let app : Response ResponseHead := ⟨⟨.ok, marked⟩, .whole (.ofLatin1 "app body")⟩
    let answer := sendfile true files false request app
    answer.head.status = .partialContent ∧
      answer.body.content? = some (.ofLatin1 "2345") ∧
      answer.head.headers.values .contentLength = [.ofNat 4] := by
  intro files request marked app answer
  have hmarked : app.head.headers.get? .xSendfile = some (.ofLatin1 "a.txt" (by decide)) := by
    decide +kernel
  have hfile : files.lookup (.ofLatin1 "a.txt") =
      .ok (.file (.ofLatin1 "0123456789") 1700000000) := by
    decide +kernel
  have hpart : answer.head.status = .partialContent ∧
      answer.body.content? = some (.ofLatin1 "2345") := by
    decide +kernel
  obtain ⟨hstatus, hbody⟩ := hpart
  obtain ⟨stated, sent, hstated, hsent, hserved, -, hiff⟩ :=
    statedLength_eq_iff request hmarked hfile
  obtain rfl := Option.some.inj (hsent.symm.trans hbody)
  have hequal := hiff.mpr (.inl (hserved.mp (.inr hstatus)))
  subst hequal
  exact ⟨hstatus, hbody, hstated⟩

/-- A range behind the end of the file is refused with the file's size for a length, and with no
octet. -/
theorem statedLength_ne_of_range_behind_end :
    let files : Files :=
      ⟨[([.ofLatin1 "a.txt"], .file (.ofLatin1 "0123456789") 1700000000)], []⟩
    let request := Headers.ofFields [(.range, .ofLatin1 "bytes=10-" (by decide))]
    let marked := Headers.ofFields [(.xSendfile, .ofLatin1 "a.txt" (by decide))]
    let app : Response ResponseHead := ⟨⟨.ok, marked⟩, .whole (.ofLatin1 "app body")⟩
    let answer := sendfile true files false request app
    answer.head.status ≠ .notModified ∧
      answer.head.headers.values .contentLength = [.ofNat 10] ∧
      answer.body.content? = some [] := by
  decide +kernel

end Gateway.Proxy

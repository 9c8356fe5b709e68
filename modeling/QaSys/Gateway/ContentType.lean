import QaSys.Data.Case
import QaSys.Data.Split
import QaSys.Gateway.Handler

/-! Which Content-Type headers make a body JSON, and which a form. -/

namespace QaSys.Gateway

open Text

inductive BodyFormat
  | json | form | unsupported
  deriving DecidableEq

/-- The format `jsonOrForm` takes a body for. -/
def BodyFormat.ofContentType (contentType : String) : BodyFormat :=
  if isJsonContentType contentType then .json
  else if isFormContentType contentType then .form
  else .unsupported

def Request.contentType (req : Request) : Option String :=
  (req.headers.get "content-type").bind HeaderValue.toStr

def Request.bodyFormat (req : Request) : BodyFormat :=
  (req.contentType.map BodyFormat.ofContentType).getD .unsupported

def beforeSemicolon (s : String) : String := String.ofList (s.toList.takeWhile (· ≠ ';'))

/-- The media type before the parameters, without the blanks around it and in lower case. -/
def mediaType (contentType : String) : String := (trim (beforeSemicolon contentType)).toLower

def IsJson (e : String) : Prop :=
  e = "application/json" ∨ ∃ x : String, e = "application/" ++ x ++ "+json"

def IsForm (e : String) : Prop := e = "application/x-www-form-urlencoded"

variable {s t pre post params : String}

@[simp] theorem toList_beforeSemicolon :
    (beforeSemicolon s).toList = s.toList.takeWhile (· ≠ ';') := String.toList_ofList ..

theorem beforeSemicolon_append_of_not_mem (h : ';' ∉ s.toList) :
    beforeSemicolon (s ++ t) = s ++ beforeSemicolon t := by
  have hfree : ∀ c ∈ s.toList, decide (c ≠ ';') = true := fun c hc =>
    decide_eq_true fun heq => h (heq ▸ hc)
  rw [← String.toList_inj, toList_beforeSemicolon, String.toList_append, String.toList_append,
    toList_beforeSemicolon, List.takeWhile_append_of_pos hfree]

theorem beforeSemicolon_of_not_mem (h : ';' ∉ s.toList) : beforeSemicolon s = s := by
  have hempty : beforeSemicolon "" = "" := rfl
  have happend := beforeSemicolon_append_of_not_mem (t := "") h
  rwa [hempty, String.append_empty] at happend

theorem beforeSemicolon_semicolon : beforeSemicolon (";" ++ s) = "" := by
  rw [← String.toList_inj, toList_beforeSemicolon, String.toList_append]
  rfl

theorem beforeSemicolon_append_of_mem (h : ';' ∈ s.toList) :
    beforeSemicolon (s ++ t) = beforeSemicolon s := by
  have hstop : (s.toList.takeWhile (· ≠ ';')).length ≠ s.toList.length := fun hlen => by
    have hall := List.takeWhile_eq_self_iff.mp
      (List.IsPrefix.eq_of_length (List.takeWhile_prefix _) hlen)
    exact absurd (hall ';' h) (by decide)
  rw [← String.toList_inj, toList_beforeSemicolon, toList_beforeSemicolon, String.toList_append,
    List.takeWhile_append, if_neg hstop]

theorem beforeSemicolon_toLower : beforeSemicolon s.toLower = (beforeSemicolon s).toLower := by
  have hsemicolon (c : Char) : decide (c.toLower ≠ ';') = decide (c ≠ ';') := by
    rw [decide_eq_decide, ne_eq, toLower_eq_iff (by decide)]
  rw [← String.toList_inj, toList_beforeSemicolon, toList_toLower, toList_toLower,
    toList_beforeSemicolon, takeWhile_map_toLower hsemicolon]

theorem contentTypeEssence_eq : contentTypeEssence s = trim (beforeSemicolon s) := by
  unfold contentTypeEssence
  cases h : splitOnce ';' s with
  | none => rw [beforeSemicolon_of_not_mem (splitOnce_eq_none.mp h)]
  | some p =>
    obtain ⟨hno, hs⟩ := splitOnce_eq_some.mp h
    have hs : s = p.1 ++ (";" ++ p.2) := by
      rw [← String.toList_inj, hs, String.toList_append, String.toList_append]
      rfl
    rw [hs, beforeSemicolon_append_of_not_mem hno, beforeSemicolon_semicolon, String.append_empty]

theorem toLower_contentTypeEssence : (contentTypeEssence s).toLower = mediaType s := by
  rw [contentTypeEssence_eq, mediaType]

theorem isForm_iff : isFormContentType s = true ↔ IsForm (mediaType s) := by
  have hlower : "application/x-www-form-urlencoded".toLower =
      "application/x-www-form-urlencoded" := toLower_eq_self (by decide)
  rw [isFormContentType, eqIgnoreAsciiCase_iff, toLower_contentTypeEssence, IsForm, hlower]

theorem isJson_cases : isJsonContentType s = true ↔
    ∃ media subtype, splitOnce '/' (contentTypeEssence s) = some (media, subtype) ∧
      media.toLower = "application" ∧ (subtype.toLower = "json" ∨
        ∃ name suffix, rsplitOnce '+' subtype = some (name, suffix) ∧ suffix.toLower = "json") := by
  have hmedia : "application".toLower = "application" := toLower_eq_self (by decide)
  have hjson : "json".toLower = "json" := toLower_eq_self (by decide)
  unfold isJsonContentType
  cases splitOnce '/' (contentTypeEssence s) with
  | none => simp
  | some p =>
    obtain ⟨media, subtype⟩ := p
    simp only [Bool.and_eq_true, Bool.or_eq_true, eqIgnoreAsciiCase_iff, hmedia, hjson]
    cases hsuffix : rsplitOnce '+' subtype with
    | none => simp [hsuffix]
    | some q =>
      obtain ⟨name, suffix⟩ := q
      simp [hsuffix, eqIgnoreAsciiCase_iff, hjson]

theorem isJson_iff : isJsonContentType s = true ↔ IsJson (mediaType s) := by
  have slash : Caseless '/' := by decide
  have plus : Caseless '+' := by decide
  have hmedia : '/' ∉ "application".toList := by decide
  have hsuffix : '+' ∉ "json".toList := by decide
  rw [isJson_cases, ← toLower_contentTypeEssence]
  constructor
  · rintro ⟨media, subtype, hsplit, hm, hsubtype⟩
    have happ {rest : List Char} (hrest : subtype.toLower.toList = rest) :
        (contentTypeEssence s).toLower.toList = "application".toList ++ '/' :: rest :=
      (splitOnce_toLower slash hmedia).mpr ⟨media, subtype, hsplit, by rw [hm], hrest⟩
    rcases hsubtype with hjson | ⟨name, suffix, hrsplit, hjson⟩
    · refine .inl (String.toList_inj.mp ?_)
      rw [happ (by rw [hjson])]
      rfl
    · refine .inr ⟨name.toLower, String.toList_inj.mp ?_⟩
      have hrest := (rsplitOnce_toLower plus hsuffix).mpr
        ⟨name, suffix, hrsplit, rfl, by rw [hjson]⟩
      rw [happ hrest, String.toList_append, String.toList_append]
      rfl
  · rintro (hjson | ⟨x, hx⟩)
    · have hlist : (contentTypeEssence s).toLower.toList =
          "application".toList ++ '/' :: "json".toList := by rw [hjson]; rfl
      obtain ⟨media, subtype, hsplit, hm, hsubtype⟩ := (splitOnce_toLower slash hmedia).mp hlist
      exact ⟨media, subtype, hsplit, String.toList_inj.mp hm, .inl (String.toList_inj.mp hsubtype)⟩
    · have hlist : (contentTypeEssence s).toLower.toList =
          "application".toList ++ '/' :: (x.toList ++ '+' :: "json".toList) := by
        rw [hx, String.toList_append, String.toList_append]
        simp
      obtain ⟨media, subtype, hsplit, hm, hsubtype⟩ := (splitOnce_toLower slash hmedia).mp hlist
      obtain ⟨name, suffix, hrsplit, -, hjson⟩ := (rsplitOnce_toLower plus hsuffix).mp hsubtype
      exact ⟨media, subtype, hsplit, String.toList_inj.mp hm,
        .inr ⟨name, suffix, hrsplit, String.toList_inj.mp hjson⟩⟩

theorem IsForm.not_isJson {e : String} (h : IsForm e) : ¬ IsJson e := by
  have hplus : '+' ∉ e.toList := by
    rw [h]
    decide
  rintro (hjson | ⟨x, hx⟩)
  · rw [h] at hjson
    exact absurd hjson (by decide)
  · refine hplus ?_
    rw [hx, String.toList_append]
    exact List.mem_append_right _ List.mem_cons_self

theorem ofContentType_congr (h : mediaType s = mediaType t) :
    BodyFormat.ofContentType s = BodyFormat.ofContentType t := by
  have hjson : isJsonContentType s = isJsonContentType t := by
    rw [Bool.eq_iff_iff, isJson_iff, isJson_iff, h]
  have hform : isFormContentType s = isFormContentType t := by
    rw [Bool.eq_iff_iff, isForm_iff, isForm_iff, h]
  rw [BodyFormat.ofContentType, BodyFormat.ofContentType, hjson, hform]

theorem mediaType_case (h : eqIgnoreAsciiCase s t = true) : mediaType s = mediaType t := by
  rw [mediaType, mediaType, toLower_trim, toLower_trim, ← beforeSemicolon_toLower,
    ← beforeSemicolon_toLower, eqIgnoreAsciiCase_iff.mp h]

theorem mediaType_blanks (hpre : ∀ c ∈ pre.toList, isWhitespace c)
    (hpost : ∀ c ∈ post.toList, isWhitespace c) : mediaType (pre ++ s ++ post) = mediaType s := by
  have hno {blanks : String} (h : ∀ c ∈ blanks.toList, isWhitespace c) : ';' ∉ blanks.toList :=
    fun hmem => absurd (h ';' hmem) (by decide)
  rw [mediaType, mediaType, String.append_assoc, beforeSemicolon_append_of_not_mem (hno hpre),
    trim_append_left hpre]
  by_cases hs : ';' ∈ s.toList
  · rw [beforeSemicolon_append_of_mem hs]
  · rw [beforeSemicolon_append_of_not_mem hs, beforeSemicolon_of_not_mem (hno hpost),
      trim_append_right hpost, beforeSemicolon_of_not_mem hs]

theorem mediaType_params (h : ';' ∉ s.toList) : mediaType (s ++ ";" ++ params) = mediaType s := by
  rw [mediaType, mediaType, String.append_assoc, beforeSemicolon_append_of_not_mem h,
    beforeSemicolon_semicolon, String.append_empty, beforeSemicolon_of_not_mem h]

theorem jsonOrForm_eq (x : Formats) (e : Endpoint) (req : Request) :
    jsonOrForm x e req = match req.bodyFormat with
      | .json => validated x e (x.json e req)
      | .form => validated x e (x.form e req)
      | .unsupported => .error .unsupportedMediaType := by
  unfold jsonOrForm Request.bodyFormat Request.contentType BodyFormat.ofContentType
  cases (req.headers.get "content-type").bind HeaderValue.toStr with
  | none => rfl
  | some value =>
    cases hjson : isJsonContentType value with
    | true => simp [hjson]
    | false => cases hform : isFormContentType value <;> simp [hjson, hform]

theorem ofContentType_eq_json : BodyFormat.ofContentType s = .json ↔ IsJson (mediaType s) := by
  rw [← isJson_iff, BodyFormat.ofContentType]
  cases isJsonContentType s <;> cases isFormContentType s <;> decide

theorem ofContentType_eq_form : BodyFormat.ofContentType s = .form ↔ IsForm (mediaType s) := by
  have hdisjoint : isFormContentType s = true → isJsonContentType s = false := fun h => by
    rw [← Bool.not_eq_true, isJson_iff]
    exact (isForm_iff.mp h).not_isJson
  rw [← isForm_iff, BodyFormat.ofContentType]
  revert hdisjoint
  cases isJsonContentType s <;> cases isFormContentType s <;> decide

theorem bodyFormat_iff {req : Request} {format : BodyFormat} (h : format ≠ .unsupported) :
    req.bodyFormat = format ↔
      ∃ s, req.contentType = some s ∧ BodyFormat.ofContentType s = format := by
  rw [Request.bodyFormat]
  cases req.contentType with
  | none => simp [h.symm]
  | some s => simp

/-- A body is read as JSON or as a form exactly when its media type says so, and without a media
type that does it is not read. -/
theorem contentType_classified (x : Formats) (e : Endpoint) (req : Request) :
    (req.bodyFormat = .json ↔ ∃ s, req.contentType = some s ∧ IsJson (mediaType s)) ∧
    (req.bodyFormat = .form ↔ ∃ s, req.contentType = some s ∧ IsForm (mediaType s)) ∧
    (jsonOrForm x e req = match req.bodyFormat with
      | .json => validated x e (x.json e req)
      | .form => validated x e (x.form e req)
      | .unsupported => .error .unsupportedMediaType) ∧
    (req.bodyFormat = .unsupported → ∀ handler : e.Payload → Gate e.Reply,
      withBody x handler req = pure { status := 415, body := .empty }) ∧
    (∀ s, ¬ (isJsonContentType s = true ∧ isFormContentType s = true)) ∧
    (∀ s t, eqIgnoreAsciiCase s t = true →
      BodyFormat.ofContentType s = BodyFormat.ofContentType t) ∧
    (∀ pre s post : String, (∀ c ∈ pre.toList, isWhitespace c = true) →
      (∀ c ∈ post.toList, isWhitespace c = true) →
      BodyFormat.ofContentType (pre ++ s ++ post) = BodyFormat.ofContentType s) ∧
    ∀ s params : String, ';' ∉ s.toList →
      BodyFormat.ofContentType (s ++ ";" ++ params) = BodyFormat.ofContentType s := by
  refine ⟨?_, ?_, jsonOrForm_eq x e req, fun hformat handler => ?_, fun s ⟨hjson, hform⟩ => ?_,
    fun s t h => ofContentType_congr (mediaType_case h),
    fun pre s post hpre hpost => ofContentType_congr (mediaType_blanks hpre hpost),
    fun s params h => ofContentType_congr (mediaType_params h)⟩
  · simp only [bodyFormat_iff (nofun : BodyFormat.json ≠ .unsupported), ofContentType_eq_json]
  · simp only [bodyFormat_iff (nofun : BodyFormat.form ≠ .unsupported), ofContentType_eq_form]
  · rw [withBody, jsonOrForm_eq, hformat]
    rfl
  · exact (isForm_iff.mp hform).not_isJson (isJson_iff.mp hjson)

end QaSys.Gateway

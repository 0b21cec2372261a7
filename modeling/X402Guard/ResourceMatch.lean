/-
The match of a target with the resource that is paid for.  A path extends
another at a segment boundary; the check looks for a slash after the resource's
path, also when that path ends with one already.
-/
import X402Guard.ProxySystem

namespace X402Guard

variable (ext : Externals)

/-- One path is the other, or begins with it and goes on at a segment
boundary. -/
def ExtendsPath (path base : String) : Prop :=
  path = base ∨ ∃ rest, path.toList = base.toList ++ rest ∧
    (base.toList.getLast? = some '/' ∨ rest.head? = some '/')

/-- The comparison of the paths. -/
def PathAccepted (path base : String) : Prop :=
  path = base ∨ path.startsWith (base ++ "/") = true ∨ base = "/"

/-- A path other than the root ends with a slash, and the other goes on after
it without one more. -/
def GoesOnAfterSlash (path base : String) : Prop :=
  base ≠ "/" ∧ base.toList.getLast? = some '/' ∧
    ∃ c rest, path.toList = base.toList ++ c :: rest ∧ c ≠ '/'

theorem startsWith_slash_iff {path base : String} :
    path.startsWith (base ++ "/") = true ↔
      ∃ rest, path.toList = base.toList ++ '/' :: rest := by
  rw [String.startsWith_string_iff, String.toList_append]
  constructor
  · rintro ⟨rest, hrest⟩
    exact ⟨rest, by simp [← hrest]⟩
  · rintro ⟨rest, hrest⟩
    exact ⟨rest, by simp [hrest]⟩

/-- What is accepted extends the resource's path. -/
theorem PathAccepted.extends {path base : String}
    (h : PathAccepted path base) (hroot : path.toList.head? = some '/') :
    ExtendsPath path base := by
  rcases h with rfl | hslash | rfl
  · exact Or.inl rfl
  · obtain ⟨rest, hrest⟩ := startsWith_slash_iff.mp hslash
    exact Or.inr ⟨_, hrest, Or.inr rfl⟩
  · obtain ⟨rest, hrest⟩ := List.head?_eq_some_iff.mp hroot
    exact Or.inr ⟨rest, hrest, Or.inl rfl⟩

/-- Every extension is accepted, except after a slash. -/
theorem ExtendsPath.accepted {path base : String} (h : ExtendsPath path base)
    (hslash : ¬ GoesOnAfterSlash path base) : PathAccepted path base := by
  rcases h with rfl | ⟨rest, hrest, hboundary⟩
  · exact Or.inl rfl
  · cases rest with
    | nil =>
        rw [List.append_nil] at hrest
        exact Or.inl (String.toList_inj.mp hrest)
    | cons c rest =>
        by_cases hc : c = '/'
        · subst hc
          exact Or.inr (Or.inl (startsWith_slash_iff.mpr ⟨rest, hrest⟩))
        · have hlast : base.toList.getLast? = some '/' :=
            hboundary.resolve_right (by simpa using hc)
          refine Or.inr (Or.inr ?_)
          by_contra hroot
          exact hslash ⟨hroot, hlast, c, rest, hrest, hc⟩

theorem GoesOnAfterSlash.extends {path base : String}
    (h : GoesOnAfterSlash path base) : ExtendsPath path base := by
  obtain ⟨_, hlast, c, rest, hrest, _⟩ := h
  exact Or.inr ⟨c :: rest, hrest, Or.inl hlast⟩

theorem GoesOnAfterSlash.not_accepted {path base : String}
    (h : GoesOnAfterSlash path base) : ¬ PathAccepted path base := by
  obtain ⟨hroot, _, c, rest, hrest, hc⟩ := h
  rintro (rfl | hslash | hbase)
  · simp at hrest
  · obtain ⟨rest', hrest'⟩ := startsWith_slash_iff.mp hslash
    rw [hrest] at hrest'
    obtain ⟨rfl, _⟩ := List.cons.inj (List.append_cancel_left hrest')
    exact hc rfl
  · exact hroot hbase

/-- The comparison is the extension of paths as long as the target does not go
on after the slash of a resource. -/
theorem pathAccepted_iff_extends_iff {path base : String}
    (hroot : path.toList.head? = some '/') :
    (PathAccepted path base ↔ ExtendsPath path base) ↔
      ¬ GoesOnAfterSlash path base := by
  constructor
  · intro hsame hslash
    exact hslash.not_accepted (hsame.mpr hslash.extends)
  · intro hslash
    exact ⟨fun haccepted => haccepted.extends hroot,
      fun hextends => hextends.accepted hslash⟩

/-- Scheme, host and port are equal. -/
def SameOrigin (target resource : Url) : Prop :=
  target.scheme = resource.scheme ∧ target.host = resource.host ∧
    target.port = resource.port

/-- What `url::Url` promises: the path of an https URL begins with a slash. -/
def Externals.PathsBeginWithSlash : Prop :=
  ∀ text url, ext.parseUrl text = some url → url.scheme = "https" →
    url.path.toList.head? = some '/'

section Urls

variable {ext} {targetText resourceText : String} {target resource : Url}

theorem validateResourceMatch_eq_ok_iff
    (htarget : ext.parseUrl targetText = some target)
    (hresource : ext.parseUrl resourceText = some resource) :
    validateResourceMatch ext targetText resourceText = .ok () ↔
      SameOrigin target resource ∧
        PathAccepted target.path resource.path := by
  simp only [validateResourceMatch, except_bind_eq_ok, okOr_eq_ok_iff,
    rejectIf_eq_ok_iff, htarget, hresource, Option.some.injEq,
    exists_eq_left', exists_const, ne_eq, not_or, not_not]
  rw [← not_or, ← not_or, not_not]
  rfl

/-- The check is the match at segment boundaries exactly when the target does
not, on the resource's origin, go on after the slash of its path. -/
theorem validateResourceMatch_exact_iff (hdoc : ext.PathsBeginWithSlash)
    (htarget : ext.parseUrl targetText = some target)
    (hresource : ext.parseUrl resourceText = some resource)
    (hhttps : target.scheme = "https") :
    (validateResourceMatch ext targetText resourceText = .ok () ↔
        SameOrigin target resource ∧
          ExtendsPath target.path resource.path) ↔
      ¬ (SameOrigin target resource ∧
        GoesOnAfterSlash target.path resource.path) := by
  have hroot := hdoc targetText target htarget hhttps
  rw [validateResourceMatch_eq_ok_iff htarget hresource, not_and,
    ← pathAccepted_iff_extends_iff hroot, and_congr_right_iff]

end Urls

namespace Sample

def rootText : String := "https://api.example.com/v1"
def versionText : String := "https://api.example.com/v1/"
def itemText : String := "https://api.example.com/v1/data"

def urlAt (path : String) : Url :=
  ⟨"https", "", none, some "api.example.com", none, path⟩

/-- A parser that knows three URLs. -/
def versioned : Externals :=
  { externals with
    parseUrl := fun text =>
      if text = versionText then some (urlAt "/v1/")
      else if text = itemText then some (urlAt "/v1/data")
      else if text = rootText then some (urlAt "/v1")
      else none }

theorem versioned_pathsBeginWithSlash : versioned.PathsBeginWithSlash := by
  intro text url hparse _
  simp only [versioned] at hparse
  split_ifs at hparse <;> cases hparse <;> rfl

theorem parseUrl_version :
    versioned.parseUrl versionText = some (urlAt "/v1/") := by
  simp only [versioned, ↓reduceIte]

theorem parseUrl_item :
    versioned.parseUrl itemText = some (urlAt "/v1/data") := by
  have hne : itemText ≠ versionText := by simp [itemText, versionText]
  simp only [versioned, hne, ↓reduceIte]

theorem parseUrl_root :
    versioned.parseUrl rootText = some (urlAt "/v1") := by
  have hversion : rootText ≠ versionText := by simp [rootText, versionText]
  have hitem : rootText ≠ itemText := by simp [rootText, itemText]
  simp only [versioned, hversion, hitem, ↓reduceIte]

theorem item_goesOnAfterSlash : GoesOnAfterSlash "/v1/data" "/v1/" :=
  ⟨by decide, by decide, 'd', ['a', 't', 'a'], by decide, by decide⟩

end Sample

/-- The resource `/v1/` and its sub-resource `/v1/data`. -/
theorem validateResourceMatch_refuses_subResource :
    Sample.versioned.PathsBeginWithSlash ∧ ∃ target resource,
      Sample.versioned.parseUrl Sample.itemText = some target ∧
      Sample.versioned.parseUrl Sample.versionText = some resource ∧
      target.scheme = "https" ∧ resource.scheme = "https" ∧
      SameOrigin target resource ∧
      ExtendsPath target.path resource.path ∧
      validateResourceMatch Sample.versioned Sample.itemText
        Sample.versionText ≠ .ok () := by
  refine ⟨Sample.versioned_pathsBeginWithSlash, _, _, Sample.parseUrl_item,
    Sample.parseUrl_version, rfl, rfl, ⟨rfl, rfl, rfl⟩,
    Sample.item_goesOnAfterSlash.extends, fun hok => ?_⟩
  have haccepted := (validateResourceMatch_eq_ok_iff Sample.parseUrl_item
    Sample.parseUrl_version).mp hok
  exact Sample.item_goesOnAfterSlash.not_accepted haccepted.2

/-- A resource without a slash at its end matches what is under it. -/
theorem validateResourceMatch_exact_iff_sample :
    validateResourceMatch Sample.versioned Sample.itemText Sample.rootText =
      .ok () := by
  have hextends : ExtendsPath "/v1/data" "/v1" :=
    Or.inr ⟨"/data".toList, by decide, Or.inr (by decide)⟩
  refine ((validateResourceMatch_exact_iff
    Sample.versioned_pathsBeginWithSlash Sample.parseUrl_item
    Sample.parseUrl_root rfl).mpr ?_).mpr ⟨⟨rfl, rfl, rfl⟩, hextends⟩
  rintro ⟨_, _, hlast, _⟩
  revert hlast
  decide

end X402Guard

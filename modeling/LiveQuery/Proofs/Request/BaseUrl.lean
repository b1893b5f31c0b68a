import Mathlib.Data.List.DropRight
import LiveQuery.Request
import LiveQuery.Settings.Basic

/-!
# Where requests go

The check of the settings looks at the base URL without the white space around it; a client takes it
as it is, less the slashes at its end. So a URL that the check lets pass can still lead nowhere: one
with white space in front keeps it, and one that is a scheme and slashes loses the slashes of the
scheme. `url_hasScheme_iff` says that these are the only ones.
-/

namespace LiveQuery

/-! ## Slashes at the end -/

namespace Client

/-- Whether a character is a slash. -/
def isSlash (c : Char) : Bool := c = '/'

theorem toList_trimSlashes (url : String) :
    (trimSlashes url).toList = url.toList.rdropWhile isSlash := by
  rw [trimSlashes, String.toList_ofList]
  rfl

/-- Behind a character that is no slash, only slashes are dropped. -/
theorem rdropWhile_append {before rest : List Char} (h : ∃ c ∈ rest, isSlash c = false) :
    (before ++ rest).rdropWhile isSlash = before ++ rest.rdropWhile isSlash := by
  have hne : (rest.reverse.dropWhile isSlash).isEmpty = false := by
    rw [List.isEmpty_eq_false_iff]
    intro hnil
    obtain ⟨c, hc, hslash⟩ := h
    have hall := List.dropWhile_eq_nil_iff.mp hnil c (List.mem_reverse.mpr hc)
    rw [hslash] at hall
    cases hall
  simp only [List.rdropWhile, List.reverse_append, List.dropWhile_append, hne, Bool.false_eq_true,
    if_false, List.reverse_reverse]

/-- Slashes at the end are dropped down to the last character that is none. -/
theorem rdropWhile_append_slashes (before : List Char) {c : Char} (hc : isSlash c = false)
    {rest : List Char} (h : ∀ c ∈ rest, isSlash c = true) :
    (before ++ [c] ++ rest).rdropWhile isSlash = before ++ [c] := by
  have hdrop : (rest.reverse ++ (before ++ [c]).reverse).dropWhile isSlash =
      ((before ++ [c]).reverse).dropWhile isSlash :=
    List.dropWhile_append_of_pos fun c hc => h c (List.mem_reverse.mp hc)
  rw [List.rdropWhile, List.reverse_append, hdrop]
  exact List.rdropWhile_concat_neg isSlash before c (by simp [hc])

end Client

namespace Settings

open Client (isSlash)

/-! ## White space around -/

theorem hasScheme_iff {url : List Char} :
    hasScheme url = true ↔ "http://".toList <+: url ∨ "https://".toList <+: url := by
  simp only [hasScheme, Bool.or_eq_true, List.isPrefixOf_iff_prefix]

/-- Settings pass the check only if the base URL, without the white space around it, names a
scheme. -/
theorem hasScheme_of_validate {s : Settings} (h : s.validate = .ok ()) :
    hasScheme (trimmed s.api.baseUrl) = true := by
  simp only [validate] at h
  split at h
  · cases h
  · split at h
    · cases h
    · rename_i hscheme
      simpa using hscheme

/-- Without white space in front, a text less the white space around it is the beginning of the
text. -/
theorem trimmed_prefix {s : String} (h : ∀ c ∈ s.toList.head?, isSpace c = false) :
    trimmed s <+: s.toList := by
  have hself : s.toList.dropWhile isSpace = s.toList := by
    cases hs : s.toList with
    | nil => rfl
    | cons c rest =>
      have hc : isSpace c = false := h c (by rw [hs]; rfl)
      rw [List.dropWhile_cons_of_neg (by simp [hc])]
  unfold trimmed
  rw [hself]
  exact List.rdropWhile_prefix isSpace s.toList

theorem mem_of_mem_trimmed {s : String} {c : Char} (h : c ∈ trimmed s) : c ∈ s.toList := by
  have hleft : c ∈ s.toList.dropWhile isSpace :=
    (List.rdropWhile_prefix isSpace (s.toList.dropWhile isSpace)).subset h
  exact (List.dropWhile_suffix isSpace).subset hleft

/-- A URL that is a scheme and slashes. -/
def IsBare (url : String) : Prop :=
  ∃ scheme ∈ ["http:".toList, "https:".toList], ∃ n, url.toList = scheme ++ List.replicate n '/'

/-! ## The URL of a request -/

theorem toList_url (s : Settings) (e : Endpoint) (filter : Filter) :
    ((Client.ofUrl s.api.baseUrl).request e filter).url.toList =
      s.api.baseUrl.toList.rdropWhile isSlash ++ e.path.toList := by
  have happend : ((Client.ofUrl s.api.baseUrl).request e filter).url =
      Client.trimSlashes s.api.baseUrl ++ e.path := rfl
  rw [happend, String.toList_append, Client.toList_trimSlashes]

/-- White space in front of the base URL stays in front of what is asked. -/
theorem not_hasScheme_of_space {base path : List Char} {c : Char} (hc : base.head? = some c)
    (hspace : isSpace c = true) (hslash : ∃ d ∈ base, isSlash d = false) :
    ¬ hasScheme (base.rdropWhile isSlash ++ path) = true := by
  have hne : base.rdropWhile isSlash ≠ [] := by
    intro hnil
    obtain ⟨d, hd, hno⟩ := hslash
    have hall := List.rdropWhile_eq_nil_iff.mp hnil d hd
    rw [hno] at hall
    cases hall
  obtain ⟨rest, hrest⟩ := List.rdropWhile_prefix isSlash base
  match hdrop : base.rdropWhile isSlash, hne with
  | d :: kept, _ =>
    rw [hdrop] at hrest
    have hd : d = c := by
      rw [← hrest] at hc
      exact Option.some.inj hc
    subst hd
    intro hscheme
    rcases hasScheme_iff.mp hscheme with hprefix | hprefix
    · obtain ⟨rfl, -⟩ := List.cons_prefix_cons.mp hprefix
      exact absurd hspace (by decide)
    · obtain ⟨rfl, -⟩ := List.cons_prefix_cons.mp hprefix
      exact absurd hspace (by decide)

/-- With anything but slashes behind its scheme, a base URL keeps the scheme. -/
theorem hasScheme_of_authority {scheme rest path : List Char}
    (hscheme : scheme ∈ ["http://".toList, "https://".toList])
    (hrest : ∃ c ∈ rest, isSlash c = false) :
    hasScheme ((scheme ++ rest).rdropWhile isSlash ++ path) = true := by
  rw [Client.rdropWhile_append hrest, List.append_assoc]
  have hprefix : scheme <+: scheme ++ (rest.rdropWhile isSlash ++ path) := List.prefix_append ..
  apply hasScheme_iff.mpr
  rcases List.mem_pair.mp hscheme with rfl | rfl
  · exact .inl hprefix
  · exact .inr hprefix

/-- A base URL that is a scheme and slashes loses the slashes, and gets them back only from a path
that starts with two. -/
theorem hasScheme_bare_iff {scheme rest path : List Char}
    (hscheme : scheme ∈ ["http:".toList, "https:".toList])
    (hrest : ∀ c ∈ rest, isSlash c = true) :
    hasScheme ((scheme ++ rest).rdropWhile isSlash ++ path) = true ↔ "//".toList <+: path := by
  have hkept : (scheme ++ rest).rdropWhile isSlash = scheme := by
    rcases List.mem_pair.mp hscheme with rfl | rfl
    · exact Client.rdropWhile_append_slashes "http".toList (c := ':') rfl hrest
    · exact Client.rdropWhile_append_slashes "https".toList (c := ':') rfl hrest
  have hplain (path : List Char) : "http://".toList <+: "http:".toList ++ path ↔
      "//".toList <+: path := List.prefix_append_right_inj "http:".toList
  have hsecure (path : List Char) : "https://".toList <+: "https:".toList ++ path ↔
      "//".toList <+: path := List.prefix_append_right_inj "https:".toList
  rw [hkept, hasScheme_iff]
  rcases List.mem_pair.mp hscheme with rfl | rfl
  · have hother : ¬ "https://".toList <+: "http:".toList ++ path := by
      simp [List.cons_prefix_cons]
    rw [hplain, or_iff_left hother]
  · have hother : ¬ "http://".toList <+: "https:".toList ++ path := by
      simp [List.cons_prefix_cons]
    rw [hsecure, or_iff_right hother]

/-- A base URL that passes the check without white space in front starts with a scheme. -/
theorem exists_scheme {s : Settings} (h : s.validate = .ok ())
    (hspace : ∀ c ∈ s.api.baseUrl.toList.head?, isSpace c = false) :
    ∃ scheme ∈ ["http:".toList, "https:".toList], ∃ rest,
      s.api.baseUrl.toList = scheme ++ ("//".toList ++ rest) := by
  have htrimmed := trimmed_prefix hspace
  rcases hasScheme_iff.mp (hasScheme_of_validate h) with hscheme | hscheme
  · obtain ⟨rest, hrest⟩ := hscheme.trans htrimmed
    exact ⟨"http:".toList, by simp, rest, hrest.symm⟩
  · obtain ⟨rest, hrest⟩ := hscheme.trans htrimmed
    exact ⟨"https:".toList, by simp, rest, hrest.symm⟩

/-- A scheme and then slashes and something else is not a scheme and slashes. -/
theorem not_isBare {url : String} {scheme rest : List Char}
    (hscheme : scheme ∈ ["http:".toList, "https:".toList]) (hurl : url.toList = scheme ++ rest)
    (hrest : ∃ c ∈ rest, isSlash c = false) : ¬ IsBare url := by
  rintro ⟨scheme', hscheme', n, hn⟩
  obtain ⟨c, hc, hslash⟩ := hrest
  have hsame : scheme ++ rest = scheme' ++ List.replicate n '/' := hurl.symm.trans hn
  have hslashes : rest = List.replicate n '/' := by
    rcases List.mem_pair.mp hscheme with rfl | rfl
    · rcases List.mem_pair.mp hscheme' with rfl | rfl
      · exact List.append_cancel_left hsame
      · simp at hsame
    · rcases List.mem_pair.mp hscheme' with rfl | rfl
      · simp at hsame
      · exact List.append_cancel_left hsame
  have hslash' : c = '/' := List.eq_of_mem_replicate (hslashes ▸ hc)
  subst hslash'
  cases hslash

/-- Settings that pass the check lead to URLs that name a scheme, unless the base URL has white space
in front, or is a scheme and slashes and the path does not start with two more of them. -/
theorem url_hasScheme_iff (s : Settings) (h : s.validate = .ok ()) (e : Endpoint)
    (filter : Filter) :
    hasScheme ((Client.ofUrl s.api.baseUrl).request e filter).url.toList = true ↔
      (∀ c ∈ s.api.baseUrl.toList.head?, isSpace c = false) ∧
        (¬ IsBare s.api.baseUrl ∨ "//".toList <+: e.path.toList) := by
  rw [toList_url]
  by_cases hspace : ∀ c ∈ s.api.baseUrl.toList.head?, isSpace c = false
  · rw [and_iff_right hspace]
    obtain ⟨scheme, hscheme, rest, hbase⟩ := exists_scheme h hspace
    by_cases hrest : ∃ c ∈ rest, isSlash c = false
    · have hauthority : ∃ c ∈ "//".toList ++ rest, isSlash c = false := by
        obtain ⟨c, hc, hslash⟩ := hrest
        exact ⟨c, List.mem_append_right _ hc, hslash⟩
      have hbare : ¬ IsBare s.api.baseUrl := not_isBare hscheme hbase hauthority
      refine iff_of_true ?_ (.inl hbare)
      have hslashed : scheme ++ "//".toList ∈ ["http://".toList, "https://".toList] := by
        rcases List.mem_pair.mp hscheme with rfl | rfl
        · exact List.mem_cons_self ..
        · exact List.mem_cons_of_mem _ (List.mem_cons_self ..)
      rw [hbase, ← List.append_assoc]
      exact hasScheme_of_authority hslashed hrest
    · have hslashes : ∀ c ∈ "//".toList ++ rest, isSlash c = true := by
        intro c hc
        rcases List.mem_append.mp hc with hc | hc
        · have htwo : ∀ d ∈ "//".toList, isSlash d = true := List.all_eq_true.mp rfl
          exact htwo c hc
        · by_contra hno
          exact hrest ⟨c, hc, by simpa using hno⟩
      have hbare : IsBare s.api.baseUrl := by
        refine ⟨scheme, hscheme, ("//".toList ++ rest).length, ?_⟩
        rw [hbase, List.append_cancel_left_eq]
        refine List.eq_replicate_iff.mpr ⟨rfl, fun c hc => ?_⟩
        exact of_decide_eq_true (hslashes c hc)
      rw [hbase, hasScheme_bare_iff hscheme hslashes, or_iff_right (not_not_intro hbare)]
  · refine iff_of_false ?_ fun hboth => hspace hboth.1
    have hfirst : ∃ c, s.api.baseUrl.toList.head? = some c ∧ isSpace c = true := by
      by_contra hno
      apply hspace
      intro c hc
      by_contra hc'
      exact hno ⟨c, hc, by simpa using hc'⟩
    obtain ⟨c, hc, hcspace⟩ := hfirst
    apply not_hasScheme_of_space hc hcspace
    refine ⟨'h', mem_of_mem_trimmed ?_, rfl⟩
    rcases hasScheme_iff.mp (hasScheme_of_validate h) with hscheme | hscheme
    · exact hscheme.subset (List.mem_cons_self ..)
    · exact hscheme.subset (List.mem_cons_self ..)

/-- The settings by default but for the base URL. -/
def withBaseUrl (url : String) : Settings := { default with api := { default.api with baseUrl := url } }

/-- White space behind the base URL, and slashes at its end, do no harm. -/
theorem url_hasScheme_iff_trailing :
    (withBaseUrl "https://orion.test//\t").validate = .ok () ∧
      (hasScheme ((Client.ofUrl "https://orion.test//\t").request EndpointName.flow.endpoint
          .empty).url.toList = true ↔
        (∀ c ∈ "https://orion.test//\t".toList.head?, isSpace c = false) ∧
          (¬ IsBare "https://orion.test//\t" ∨
            "//".toList <+: EndpointName.flow.endpoint.path.toList)) :=
  ⟨by decide, url_hasScheme_iff (withBaseUrl "https://orion.test//\t") (by decide) _ _⟩

/-- White space in front of the base URL passes the check and stays in front of the URL; and from a
base URL of nothing but a scheme the slashes are taken away. -/
theorem url_without_scheme :
    ((withBaseUrl " http://orion.test/api").validate = .ok () ∧
      ((Client.ofUrl " http://orion.test/api").request EndpointName.flow.endpoint .empty).url =
        " http://orion.test/api/flows/" ∧
      hasScheme " http://orion.test/api/flows/".toList = false) ∧
    ((withBaseUrl "http://").validate = .ok () ∧
      ((Client.ofUrl "http://").request EndpointName.flow.endpoint .empty).url = "http:/flows/" ∧
      hasScheme "http:/flows/".toList = false) := by
  refine ⟨⟨?_, ?_, ?_⟩, ?_, ?_, ?_⟩
  · decide
  · decide
  · decide
  · decide
  · decide
  · decide

end Settings
end LiveQuery

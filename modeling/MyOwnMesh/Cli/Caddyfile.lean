import MyOwnMesh.Cli.Markers
import MyOwnMesh.Lib.Replay

/-!
# Edits of a Caddyfile

An operator's text without markers, edited any number of times, is a document: the text of the
operator in two parts with the Layer 4 block between them, and behind it one fenced block per
host. An edit of the text is the installation of a host in the document, as long as the marker of
the host is met as a line of its own and the Layer 4 block lands between two lines.
-/

namespace MyOwnMesh.Caddy

open Lib.Text Lib.Search Lib.Replay

/-! ### Documents -/

/-- A host with its TURN host and port. Hosts are single lines without markers. -/
structure Site where
  host : Text
  turnHost : Text
  port : UInt16
  line : '\n' ∉ host
  free : MarkerFree host
  turn_free : MarkerFree turnHost

def Site.block (s : Site) : Text := managedBlock s.host s.turnHost s.port

/-- The fenced blocks of sites, each behind an empty line. -/
def fenced (sites : List Site) : Text := sites.flatMap fun s ↦ '\n' :: s.block

/-- A Caddyfile with managed blocks. -/
structure Doc where
  top : Text
  turnHost : Text
  turnPort : UInt16
  turnsPort : UInt16
  rest : Text
  sites : List Site
  top_whole : Whole '\n' top
  top_free : MarkerFree top
  turn_free : MarkerFree turnHost
  rest_whole : Whole '\n' rest
  rest_free : MarkerFree rest
  rest_brace : rest.head? = some '\x7d'
  nonempty : sites ≠ []
  nodup : (sites.map Site.host).Nodup

/-- The Layer 4 block as it stands in the text. -/
def Doc.layer4 (d : Doc) : Text := indent (layer4Block d.turnHost d.turnPort d.turnsPort) ['\t']

/-- The text before the fenced blocks. -/
def Doc.front (d : Doc) : Text := d.top ++ (d.layer4 ++ d.rest)

def Doc.text (d : Doc) : Text := d.front ++ fenced d.sites

/-! ### Searching a document -/

theorem block_eq (s : Site) :
    s.block = (beginMarker s.host ++ ['\n'] ++ siteBlock s.host s.turnHost s.port) ++
      (endMarker s.host ++ ['\n']) := by
  simp only [Site.block, managedBlock, List.append_assoc]

theorem head_whole (s : Site) :
    Whole '\n' (beginMarker s.host ++ ['\n'] ++ siteBlock s.host s.turnHost s.port) :=
  (whole_snoc _).append (siteBlock_whole _ _ _)

theorem block_whole (s : Site) : Whole '\n' s.block := by
  rw [block_eq]
  exact (head_whole s).append (whole_snoc _)

theorem fenced_whole (sites : List Site) : Whole '\n' (fenced sites) :=
  Whole.flatMap fun s _ ↦ (whole_snoc []).append (block_whole s)

theorem fenced_append (before after : List Site) :
    fenced (before ++ after) = fenced before ++ fenced after := List.flatMap_append

theorem fenced_singleton (s : Site) : fenced [s] = '\n' :: s.block := by
  simp only [fenced, List.flatMap_cons, List.flatMap_nil, List.append_nil]

theorem layer4_eq (d : Doc) : d.layer4 = '\t' :: ((layer4Begin ++ ['\n']) ++
    (indent (layer4Body d.turnHost d.turnPort d.turnsPort) ['\t'] ++
      '\t' :: (layer4End ++ ['\n']))) := by
  rw [Doc.layer4, indent_layer4Block]
  simp only [List.append_assoc, List.cons_append, List.nil_append]

theorem layer4_whole (d : Doc) : Whole '\n' d.layer4 := indent_whole _ _

theorem front_whole (d : Doc) : Whole '\n' d.front :=
  d.top_whole.append ((layer4_whole d).append d.rest_whole)

section

variable {pat : Text} (hline : '\n' ∉ pat) (hpat : ∃ marker ∈ markers, marker <+: pat)

include hpat in
theorem not_infix_cons {c : Char} {t : Text} (hc : c ≠ '#') (h : ¬pat <:+: t) :
    ¬pat <:+: c :: t := by
  obtain ⟨marker, hmarker, hstarts⟩ := hpat
  obtain ⟨tail, rfl⟩ := marker_head hmarker
  obtain ⟨more, rfl⟩ := hstarts
  exact not_infix_append_of_head (s := [c]) rfl (fun hmem ↦ hc (List.mem_singleton.mp hmem).symm) h

include hline hpat

/-- A marker that does not start the lines of a fence is not in it. -/
theorem not_infix_head {s : Site} (hbegin : ¬pat <+: beginMarker s.host ++ ['\n']) :
    ¬pat <:+: beginMarker s.host ++ ['\n'] ++ siteBlock s.host s.turnHost s.port := by
  obtain ⟨marker, hmarker, hstarts⟩ := hpat
  refine not_infix_append hline (whole_snoc _) ?_
    ((siteBlock_markerFree s.free s.turn_free s.port).absent hmarker hstarts)
  rw [beginMarker, List.append_assoc] at hbegin ⊢
  exact not_infix_line ⟨marker, hmarker, hstarts⟩ (by decide) s.free hbegin

theorem not_infix_block {s : Site} (hbegin : ¬pat <+: beginMarker s.host ++ ['\n'])
    (hend : ¬pat <+: endMarker s.host ++ ['\n']) : ¬pat <:+: s.block := by
  rw [block_eq]
  refine not_infix_append hline (head_whole s) (not_infix_head hline hpat hbegin) ?_
  rw [endMarker, List.append_assoc] at hend ⊢
  exact not_infix_line hpat (by decide) s.free hend

theorem not_infix_fenced {sites : List Site}
    (hbegin : ∀ s ∈ sites, ¬pat <+: beginMarker s.host ++ ['\n'])
    (hend : ∀ s ∈ sites, ¬pat <+: endMarker s.host ++ ['\n']) : ¬pat <:+: fenced sites := by
  induction sites with
  | nil =>
    obtain ⟨marker, hmarker, hstarts⟩ := hpat
    exact (MarkerFree.of_notMem List.not_mem_nil).absent hmarker hstarts
  | cons s sites ih =>
    have hs := List.mem_cons_self (a := s) (l := sites)
    refine not_infix_append hline ((whole_snoc []).append (block_whole s)) ?_
      (ih (fun t ht ↦ hbegin t (List.mem_cons_of_mem s ht))
        fun t ht ↦ hend t (List.mem_cons_of_mem s ht))
    exact not_infix_cons hpat (by decide) (not_infix_block hline hpat (hbegin s hs) (hend s hs))

/-- A marker other than those of the Layer 4 block is not before the fences. -/
theorem not_infix_front (d : Doc) (hbegin : ¬pat <+: layer4Begin ++ ['\n'])
    (hend : ¬pat <+: layer4End ++ ['\n']) : ¬pat <:+: d.front := by
  obtain ⟨marker, hmarker, hstarts⟩ := id hpat
  have hbody : MarkerFree (indent (layer4Body d.turnHost d.turnPort d.turnsPort) ['\t']) :=
    indent_markerFree (layer4Body_markerFree d.turn_free _ _) (by decide)
  refine not_infix_append hline d.top_whole (d.top_free.absent hmarker hstarts) ?_
  refine not_infix_append hline (layer4_whole d) ?_ (d.rest_free.absent hmarker hstarts)
  rw [layer4_eq]
  refine not_infix_cons hpat (by decide) ?_
  refine not_infix_append hline (whole_snoc _) ?_ ?_
  · exact not_infix_line_alone hpat (by decide) hbegin
  refine not_infix_append hline (indent_whole _ _) (hbody.absent hmarker hstarts) ?_
  refine not_infix_cons hpat (by decide) ?_
  exact not_infix_line_alone hpat (by decide) hend

end

/-- A marker behind one other character is found behind it. -/
theorem find_cons_marker {pat : Text} (hpat : ∃ marker ∈ markers, marker <+: pat) {c : Char}
    (hc : c ≠ '#') (t : Text) : find pat (c :: (pat ++ t)) = some ([c], pat ++ t) := by
  obtain ⟨marker, hmarker, hstarts⟩ := hpat
  obtain ⟨tail, rfl⟩ := marker_head hmarker
  have hfirst : ¬pat <+: c :: (pat ++ t) := by
    intro h
    exact hc (List.cons_prefix_cons.mp (hstarts.trans h)).1.symm
  rw [find_cons_of_not_start hfirst, find_of_start (List.prefix_append pat t)]
  rfl

/-! ### The Layer 4 block of a document -/

theorem newline_notMem_layer4Begin : '\n' ∉ layer4Begin := by decide

theorem newline_notMem_layer4End : '\n' ∉ layer4End := by decide

/-- What follows the first marker of the Layer 4 block. -/
def Doc.behindBegin (d : Doc) : Text :=
  '\n' :: (indent (layer4Body d.turnHost d.turnPort d.turnsPort) ['\t'] ++
    '\t' :: (layer4End ++ '\n' :: (d.rest ++ fenced d.sites)))

theorem text_eq (d : Doc) : d.text = d.top ++ '\t' :: (layer4Begin ++ d.behindBegin) := by
  simp only [Doc.text, Doc.front, layer4_eq, Doc.behindBegin, List.append_assoc, List.cons_append,
    List.nil_append]

theorem find_layer4Begin (d : Doc) :
    find layer4Begin d.text = some (d.top ++ ['\t'], layer4Begin ++ d.behindBegin) := by
  obtain ⟨marker, hmarker, hstarts⟩ := layer4Begin_marker
  rw [text_eq, find_append newline_notMem_layer4Begin d.top_whole
    (d.top_free.absent hmarker hstarts), find_cons_marker layer4Begin_marker (by decide),
    Option.map_some]

theorem find_layer4End (d : Doc) : ∃ upTo, find layer4End d.text =
    some (upTo, layer4End ++ '\n' :: (d.rest ++ fenced d.sites)) := by
  obtain ⟨marker, hmarker, hstarts⟩ := layer4End_marker
  have hbody : MarkerFree (indent (layer4Body d.turnHost d.turnPort d.turnsPort) ['\t']) :=
    indent_markerFree (layer4Body_markerFree d.turn_free _ _) (by decide)
  have hwhole : Whole '\n' (d.top ++ '\t' :: (layer4Begin ++ ['\n'])) :=
    d.top_whole.append (whole_snoc ('\t' :: layer4Begin))
  have hbegin : ¬layer4End <:+: d.top ++ '\t' :: (layer4Begin ++ ['\n']) := by
    refine not_infix_append newline_notMem_layer4End d.top_whole
      (d.top_free.absent hmarker hstarts) (not_infix_cons layer4End_marker (by decide) ?_)
    exact not_infix_line_alone layer4End_marker (by decide)
      (not_prefix_of_getElem? 2 (by decide) (by decide))
  have hsplit : d.text = (d.top ++ '\t' :: (layer4Begin ++ ['\n'])) ++
      (indent (layer4Body d.turnHost d.turnPort d.turnsPort) ['\t'] ++
        '\t' :: (layer4End ++ '\n' :: (d.rest ++ fenced d.sites))) := by
    rw [text_eq, Doc.behindBegin]
    simp only [List.append_assoc, List.cons_append, List.nil_append]
  rw [hsplit, find_append newline_notMem_layer4End hwhole hbegin,
    find_append newline_notMem_layer4End (indent_whole _ _) (hbody.absent hmarker hstarts),
    find_cons_marker layer4End_marker (by decide)]
  exact ⟨_, rfl⟩

/-- The document with another Layer 4 block. -/
def Doc.withTurn (d : Doc) (turnHost : Text) (turnPort turnsPort : UInt16)
    (h : MarkerFree turnHost) : Doc :=
  { d with turnHost := turnHost, turnPort := turnPort, turnsPort := turnsPort, turn_free := h }

theorem splitLastLine_top (d : Doc) : splitLastLine (d.top ++ ['\t']) = (d.top, ['\t']) := by
  unfold splitLastLine
  rcases d.top_whole with h | ⟨body, h⟩
  · rw [h]
    rfl
  · rw [h, List.append_assoc, List.singleton_append, rsplitOnceChars_append (by decide)]

theorem dropWhile_rest (d : Doc) (t : Text) :
    (d.rest ++ t).dropWhile (· = '\n') = d.rest ++ t := by
  obtain ⟨more, hmore⟩ := List.head?_eq_some_iff.mp d.rest_brace
  rw [hmore]
  rfl

/-- The Layer 4 block of a document is replaced in its place. -/
theorem upsertLayer4Global_text (d : Doc) {turnHost : Text} (h : MarkerFree turnHost)
    (turnPort turnsPort : UInt16) : upsertLayer4Global d.text turnHost turnPort turnsPort =
      (d.withTurn turnHost turnPort turnsPort h).text := by
  obtain ⟨upTo, hend⟩ := find_layer4End d
  unfold upsertLayer4Global
  rw [find_layer4Begin, hend]
  simp only
  rw [splitLastLine_top, List.drop_left' rfl]
  simp only
  rw [if_pos (by decide), List.dropWhile_cons_of_pos (by decide), dropWhile_rest]
  simp only [Doc.text, Doc.front, Doc.layer4, Doc.withTurn, List.append_assoc]

/-! ### The fences of a document -/

/-- A site takes the place of the one with its host, or comes last. -/
def place (s : Site) : List Site → List Site
  | [] => [s]
  | t :: sites => if t.host = s.host then s :: sites else t :: place s sites

theorem place_of_absent {s : Site} {sites : List Site} (h : ∀ t ∈ sites, t.host ≠ s.host) :
    place s sites = sites ++ [s] := by
  induction sites with
  | nil => rfl
  | cons t sites ih =>
    rw [place, if_neg (h t List.mem_cons_self), ih fun u hu ↦ h u (List.mem_cons_of_mem t hu)]
    rfl

theorem place_of_split {s t : Site} {before after : List Site} (ht : t.host = s.host)
    (h : ∀ u ∈ before, u.host ≠ s.host) :
    place s (before ++ t :: after) = before ++ s :: after := by
  induction before with
  | nil => rw [List.nil_append, place, if_pos ht, List.nil_append]
  | cons u before ih =>
    rw [List.cons_append, place, if_neg (h u List.mem_cons_self),
      ih fun v hv ↦ h v (List.mem_cons_of_mem u hv), List.cons_append]

theorem hosts_place (s : Site) (sites : List Site) : (place s sites).map Site.host =
    if s.host ∈ sites.map Site.host then sites.map Site.host
    else sites.map Site.host ++ [s.host] := by
  induction sites with
  | nil => rfl
  | cons t sites ih =>
    rw [place, List.map_cons]
    by_cases ht : t.host = s.host
    · rw [if_pos ht, if_pos (List.mem_cons.mpr (.inl ht.symm)), List.map_cons, ht]
    · rw [if_neg ht, List.map_cons, ih]
      by_cases hs : s.host ∈ sites.map Site.host
      · rw [if_pos hs, if_pos (List.mem_cons_of_mem _ hs)]
      · rw [if_neg hs, if_neg (List.not_mem_cons_of_ne_of_not_mem (Ne.symm ht) hs),
          List.cons_append]

theorem nodup_place {s : Site} {sites : List Site} (h : (sites.map Site.host).Nodup) :
    ((place s sites).map Site.host).Nodup := by
  rw [hosts_place]
  split
  · exact h
  · next hs =>
    rw [← List.concat_eq_append]
    exact (List.nodup_concat _ _).mpr ⟨hs, h⟩

theorem place_ne_nil (s : Site) (sites : List Site) : place s sites ≠ [] := by
  cases sites with
  | nil => simp [place]
  | cons t sites =>
    rw [place]
    split <;> simp

/-- The document with a site. -/
def Doc.withSite (d : Doc) (s : Site) : Doc :=
  { d with
    sites := place s d.sites
    nonempty := place_ne_nil s d.sites
    nodup := nodup_place d.nodup }

/-- The first host that a host starts is the host itself. -/
def Doc.Fits (d : Doc) (host : Text) : Prop :=
  ∀ host' ∈ (d.sites.map Site.host).find? host.isPrefixOf, host' = host

/-- A marker of a fence is searched behind the fences that do not have it. -/
theorem find_fence (d : Doc) {pat : Text} (hline : '\n' ∉ pat)
    (hpat : ∃ marker ∈ markers, marker <+: pat) (hlayerBegin : ¬pat <+: layer4Begin ++ ['\n'])
    (hlayerEnd : ¬pat <+: layer4End ++ ['\n']) {before after : List Site} {s : Site}
    (hsites : d.sites = before ++ s :: after)
    (hbegin : ∀ t ∈ before, ¬pat <+: beginMarker t.host ++ ['\n'])
    (hend : ∀ t ∈ before, ¬pat <+: endMarker t.host ++ ['\n']) :
    find pat d.text = (find pat (s.block ++ fenced after)).map fun p ↦
      (d.front ++ fenced before ++ ['\n'] ++ p.1, p.2) := by
  have hsplit : d.text = (d.front ++ fenced before ++ ['\n']) ++ (s.block ++ fenced after) := by
    rw [Doc.text, hsites, fenced_append]
    simp only [fenced, List.flatMap_cons, List.append_assoc, List.cons_append, List.nil_append]
  have hwhole : Whole '\n' (d.front ++ fenced before ++ ['\n']) := whole_snoc _
  have hfree : ¬pat <:+: d.front ++ fenced before ++ ['\n'] := by
    rw [List.append_assoc]
    refine not_infix_append hline (front_whole d)
      (not_infix_front hline hpat d hlayerBegin hlayerEnd)
      (not_infix_append hline (fenced_whole before) (not_infix_fenced hline hpat hbegin hend) ?_)
    obtain ⟨marker, hmarker, hstarts⟩ := hpat
    exact (MarkerFree.of_notMem (by decide)).absent hmarker hstarts
  rw [hsplit, find_append hline hwhole hfree]

theorem length_head_pos (s : Site) :
    0 < (beginMarker s.host ++ ['\n'] ++ siteBlock s.host s.turnHost s.port).length := by
  rw [List.length_append, List.length_append]
  have := length_beginMarker s.host
  omega

/-- Where the first marker of a host is found. -/
theorem find_beginMarker (d : Doc) {host : Text} (hline : '\n' ∉ host) {before after : List Site}
    {s : Site} (hsites : d.sites = before ++ s :: after)
    (hbefore : ∀ t ∈ before, ¬host <+: t.host) (hs : host <+: s.host) :
    find (beginMarker host) d.text =
      some (d.front ++ fenced before ++ ['\n'], s.block ++ fenced after) := by
  obtain ⟨hbegin, hend, hother⟩ := beginMarker_not_start host
  rw [find_fence d (newline_notMem_beginMarker hline) (begin_marker host) hbegin hend hsites
    (fun t ht ↦ (beginMarker_prefix_iff hline).not.mpr (hbefore t ht)) fun t _ ↦ hother t.host]
  have hstarts : beginMarker host <+: s.block ++ fenced after := by
    refine ((beginMarker_prefix_iff hline).mpr hs).trans
      ⟨siteBlock s.host s.turnHost s.port ++ (endMarker s.host ++ ['\n']) ++ fenced after, ?_⟩
    simp only [block_eq, List.append_assoc]
  rw [find_of_start hstarts, Option.map_some, List.append_nil]

/-- Where the last marker of a host is found. -/
theorem find_endMarker (d : Doc) {host : Text} (hline : '\n' ∉ host) {before after : List Site}
    {s : Site} (hsites : d.sites = before ++ s :: after)
    (hbefore : ∀ t ∈ before, ¬host <+: t.host) (hs : host <+: s.host) :
    find (endMarker host) d.text =
      some (d.front ++ fenced before ++ ['\n'] ++
        (beginMarker s.host ++ ['\n'] ++ siteBlock s.host s.turnHost s.port),
        endMarker s.host ++ ['\n'] ++ fenced after) := by
  obtain ⟨hbegin, hend, hother⟩ := endMarker_not_start host
  have hpat := newline_notMem_endMarker hline
  have hblock : s.block ++ fenced after =
      (beginMarker s.host ++ ['\n'] ++ siteBlock s.host s.turnHost s.port) ++
        (endMarker s.host ++ ['\n'] ++ fenced after) := by
    simp only [block_eq, List.append_assoc]
  rw [find_fence d hpat (end_marker host) hbegin hend hsites (fun t _ ↦ hother t.host)
    (fun t ht ↦ (endMarker_prefix_iff hline).not.mpr (hbefore t ht)), hblock,
    find_append hpat (head_whole s) (not_infix_head hpat (end_marker host) (hother s.host)),
    find_of_start (((endMarker_prefix_iff hline).mpr hs).trans (List.prefix_append _ _))]
  simp only [Option.map_some, List.append_nil]

theorem find_beginMarker_of_absent (d : Doc) {host : Text} (hline : '\n' ∉ host)
    (h : ∀ t ∈ d.sites, ¬host <+: t.host) : find (beginMarker host) d.text = none := by
  obtain ⟨hbegin, hend, hother⟩ := beginMarker_not_start host
  have hpat := newline_notMem_beginMarker hline
  rw [find_eq_none_iff, Doc.text]
  exact not_infix_append hpat (front_whole d)
    (not_infix_front hpat (begin_marker host) d hbegin hend)
    (not_infix_fenced hpat (begin_marker host)
      (fun t ht ↦ (beginMarker_prefix_iff hline).not.mpr (h t ht)) fun t _ ↦ hother t.host)

theorem newline_notMem_last (s : Site) : '\n' ∉ endMarker s.host := newline_notMem_endMarker s.line

/-- A document ends with one line feed. -/
theorem separator_text (d : Doc) : separator d.text = ['\n'] := by
  obtain ⟨init, s, hsites⟩ := List.eq_nil_or_concat d.sites |>.resolve_left d.nonempty
  have hlast : ∃ t, d.text = t ++ endMarker s.host ++ ['\n'] := by
    refine ⟨d.front ++ fenced init ++ ['\n'] ++
      (beginMarker s.host ++ ['\n'] ++ siteBlock s.host s.turnHost s.port), ?_⟩
    rw [Doc.text, hsites, List.concat_eq_append, fenced_append]
    simp only [fenced, List.flatMap_cons, List.flatMap_nil, block_eq, List.append_assoc,
      List.cons_append, List.nil_append, List.append_nil]
  obtain ⟨t, ht⟩ := hlast
  have hone : "\n".toList <:+ d.text := ht ▸ List.suffix_append _ _
  have htwo : ¬"\n\n".toList <:+ d.text := by
    rintro ⟨u, hu⟩
    rw [ht] at hu
    have hbefore : u ++ ['\n'] = t ++ endMarker s.host :=
      List.append_cancel_right (by simpa using hu)
    obtain ⟨init, c, hinit⟩ := (List.eq_nil_or_concat (endMarker s.host)).resolve_left fun hnil ↦ by
      have hlength := length_endMarker s.host
      rw [hnil] at hlength
      exact absurd hlength (by decide)
    rw [hinit, List.concat_eq_append, ← List.append_assoc] at hbefore
    obtain ⟨-, hc⟩ := List.append_inj' hbefore rfl
    refine newline_notMem_last s ?_
    rw [hinit, ← List.head_eq_of_cons_eq hc, List.concat_eq_append]
    exact List.mem_append_right _ (List.mem_singleton_self _)
  have hne : d.text ≠ [] := by
    intro hnil
    rw [hnil] at ht
    simp at ht
  unfold separator
  rw [if_pos ⟨hne, fun h ↦ htwo (List.isSuffixOf_iff_suffix.mp h)⟩,
    if_pos (List.isSuffixOf_iff_suffix.mpr hone)]
  rfl

/-- The fence of a host is replaced in its place, or put behind the others. -/
theorem sites_text (d : Doc) (s : Site) (hfits : d.Fits s.host) :
    (replaceManaged d.text s.host s.block).getD (d.text ++ separator d.text ++ s.block) =
      (d.withSite s).text := by
  cases hfind : d.sites.find? fun t ↦ s.host.isPrefixOf t.host with
  | none =>
    have habsent : ∀ t ∈ d.sites, ¬s.host <+: t.host := by
      intro t ht hstarts
      exact List.find?_eq_none.mp hfind t ht (List.isPrefixOf_iff_prefix.mpr hstarts)
    have hplace : place s d.sites = d.sites ++ [s] :=
      place_of_absent fun t ht heq ↦ habsent t ht (heq ▸ List.prefix_rfl)
    have hnone : replaceManaged d.text s.host s.block = none := by
      unfold replaceManaged
      rw [find_beginMarker_of_absent d s.line habsent]
      rfl
    rw [hnone, Option.getD_none, separator_text]
    change _ = d.front ++ fenced (place s d.sites)
    rw [hplace, fenced_append, Doc.text]
    simp only [fenced, List.flatMap_cons, List.flatMap_nil, List.append_assoc, List.cons_append,
      List.nil_append, List.append_nil]
  | some t =>
    obtain ⟨hstarts, before, after, hsites, hbefore⟩ := List.find?_eq_some_iff_append.mp hfind
    have hstarts := List.isPrefixOf_iff_prefix.mp hstarts
    have hbefore : ∀ u ∈ before, ¬s.host <+: u.host := by
      intro u hu h
      have hu' := hbefore u hu
      rw [List.isPrefixOf_iff_prefix.mpr h] at hu'
      cases hu'
    have ht : t.host = s.host := by
      refine hfits t.host ?_
      rw [List.find?_map, Option.mem_def, Option.map_eq_some_iff]
      exact ⟨t, hfind, rfl⟩
    have hplace : place s d.sites = before ++ s :: after := by
      rw [hsites]
      exact place_of_split ht fun u hu heq ↦ hbefore u hu (heq ▸ List.prefix_rfl)
    have hlength : (d.front ++ fenced before ++ ['\n']).length <
        (d.front ++ fenced before ++ ['\n'] ++
          (beginMarker t.host ++ ['\n'] ++ siteBlock t.host t.turnHost t.port)).length := by
      have hpos := length_head_pos t
      rw [@List.length_append _ _ (beginMarker t.host ++ ['\n'] ++ _)]
      omega
    have hsome : replaceManaged d.text s.host s.block =
        some (d.front ++ fenced before ++ ['\n'] ++ s.block ++ fenced after) := by
      unfold replaceManaged
      rw [find_beginMarker d s.line hsites hbefore hstarts,
        find_endMarker d s.line hsites hbefore hstarts]
      simp only [Option.bind_eq_bind, Option.bind_some]
      rw [if_pos hlength, ht, List.append_assoc (endMarker s.host), List.drop_left' rfl,
        afterChars_append, Option.getD_some]
    rw [hsome, Option.getD_some]
    change _ = d.front ++ fenced (place s d.sites)
    rw [hplace, fenced_append]
    simp only [fenced, List.flatMap_cons, List.append_assoc, List.cons_append, List.nil_append]

/-! ### Edits -/

/-- The arguments of one call. -/
structure Call where
  host : Text
  turnHost : Text
  port : UInt16
  turnPort : UInt16
  turnsPort : UInt16
deriving DecidableEq

/-- One call, on the text it is given. -/
def edit (text : Text) (c : Call) : Text :=
  upsertManagedBlock text c.host c.turnHost c.port c.turnPort c.turnsPort

/-- The host is one line, and neither host has a marker. -/
structure Call.Clean (c : Call) : Prop where
  line : '\n' ∉ c.host
  free : MarkerFree c.host
  turn_free : MarkerFree c.turnHost

instance (c : Call) : Decidable c.Clean :=
  decidable_of_iff ('\n' ∉ c.host ∧ MarkerFree c.host ∧ MarkerFree c.turnHost)
    ⟨fun ⟨h, h', h''⟩ ↦ ⟨h, h', h''⟩, fun h ↦ ⟨h.line, h.free, h.turn_free⟩⟩

def Call.site (c : Call) (h : c.Clean) : Site :=
  { host := c.host, turnHost := c.turnHost, port := c.port, line := h.line, free := h.free
    turn_free := h.turn_free }

/-- A call, on a document. -/
def Doc.install (d : Doc) (c : Call) (h : c.Clean) : Doc :=
  (d.withSite (c.site h)).withTurn c.turnHost c.turnPort c.turnsPort h.turn_free

/-- The Layer 4 block is that of a call. -/
structure Doc.Turns (d : Doc) (c : Call) : Prop where
  host : d.turnHost = c.turnHost
  port : d.turnPort = c.turnPort
  tls : d.turnsPort = c.turnsPort

theorem fits_install {d : Doc} {c : Call} (h : c.Clean) (hfits : d.Fits c.host) :
    (d.install c h).Fits c.host := by
  intro host' hhost'
  change host' ∈ ((place (c.site h) d.sites).map Site.host).find? c.host.isPrefixOf at hhost'
  rw [hosts_place] at hhost'
  split at hhost'
  · exact hfits host' hhost'
  · rw [List.find?_append, Option.mem_def, Option.or_eq_some_iff] at hhost'
    rcases hhost' with hold | ⟨-, hnew⟩
    · exact hfits host' hold
    · exact List.mem_singleton.mp (List.mem_of_find?_eq_some hnew)

theorem mem_place (s : Site) (sites : List Site) : s ∈ place s sites := by
  induction sites with
  | nil => exact List.mem_singleton_self s
  | cons t sites ih =>
    rw [place]
    split
    · exact List.mem_cons_self
    · exact List.mem_cons_of_mem t ih

/-- The sites of other hosts stay. -/
theorem mem_place_of_ne {s t : Site} {sites : List Site} (h : t ∈ sites) (hne : t.host ≠ s.host) :
    t ∈ place s sites := by
  induction sites with
  | nil => cases h
  | cons u sites ih =>
    rw [place]
    rcases List.mem_cons.mp h with rfl | hmem
    · rw [if_neg hne]
      exact List.mem_cons_self
    · split
      · exact List.mem_cons_of_mem s hmem
      · exact List.mem_cons_of_mem u (ih hmem)

/-- A site that is there is put where it is. -/
theorem place_of_mem {s : Site} {sites : List Site} (h : s ∈ sites)
    (hnodup : (sites.map Site.host).Nodup) : place s sites = sites := by
  induction sites with
  | nil => cases h
  | cons t sites ih =>
    rw [List.map_cons, List.nodup_cons] at hnodup
    rw [place]
    rcases List.mem_cons.mp h with rfl | hmem
    · rw [if_pos rfl]
    · have hne : t.host ≠ s.host := fun heq ↦ hnodup.1 (heq ▸ List.mem_map_of_mem hmem)
      rw [if_neg hne, ih hmem hnodup.2]

/-- What is installed is installed again without a change. -/
theorem install_of_mem {d : Doc} {c : Call} (h : c.Clean) (hmem : c.site h ∈ d.sites)
    (hturns : d.Turns c) : d.install c h = d := by
  have hplace : place (c.site h) d.sites = d.sites := place_of_mem hmem d.nodup
  obtain ⟨hhost, hport, htls⟩ := hturns
  cases d
  simp only at hplace hhost hport htls
  subst hhost hport htls
  simp only [Doc.install, Doc.withTurn, Doc.withSite, hplace]

/-- An edit of a document installs the host. -/
theorem edit_text (d : Doc) (c : Call) (h : c.Clean) (hfits : d.Fits c.host) :
    edit d.text c = (d.install c h).text := by
  have hsites := sites_text d (c.site h) hfits
  unfold edit upsertManagedBlock
  change upsertLayer4Global ((replaceManaged d.text (c.site h).host (c.site h).block).getD
    (d.text ++ separator d.text ++ (c.site h).block)) c.turnHost c.turnPort c.turnsPort = _
  rw [hsites]
  exact upsertLayer4Global_text _ h.turn_free _ _

/-! ### The first edit -/

theorem getElem?_closingBrace {depth n : Nat} {t : Text} (h : closingBrace depth t = some n) :
    t[n]? = some '\x7d' := by
  induction t generalizing depth n with
  | nil => cases h
  | cons c rest ih =>
    have hnext : ∀ depth', (closingBrace depth' rest).map (· + 1) = some n →
        (c :: rest)[n]? = some '\x7d' := by
      intro depth' h'
      obtain ⟨m, hm, rfl⟩ := Option.map_eq_some_iff.mp h'
      exact ih hm
    rw [closingBrace] at h
    split at h
    · exact hnext _ h
    · split at h
      · next hbrace =>
        split at h
        · obtain rfl := Option.some.inj h
          rw [hbrace]
          rfl
        · exact hnext _ h
      · exact hnext _ h

/-- The global options block closes at a brace. -/
theorem head?_globalOptionsClose {t : Text} {close : Nat} (h : globalOptionsClose t = some close) :
    (t.drop close).head? = some '\x7d' := by
  obtain ⟨offset, -, hrest⟩ := Option.bind_eq_some_iff.mp h
  obtain ⟨relative, hclose, heq⟩ := Option.bind_eq_some_iff.mp hrest
  obtain rfl := Option.some.inj heq
  have hbrace := getElem?_closingBrace hclose
  rwa [List.getElem?_drop, ← List.head?_drop] at hbrace

/-- What separates new content is at most two line feeds. -/
theorem separator_cases (t : Text) : separator t = [] ∨ ∃ more, separator t = '\n' :: more := by
  unfold separator
  split
  · split
    · exact .inr ⟨[], rfl⟩
    · exact .inr ⟨['\n'], rfl⟩
  · exact .inl rfl

theorem notMem_separator (t : Text) {c : Char} (hc : c ≠ '\n') : c ∉ separator t := by
  have hone : c ∉ "\n".toList := fun h ↦ hc (List.mem_singleton.mp h)
  have htwo : c ∉ "\n\n".toList := by
    intro h
    rcases List.mem_cons.mp h with h | h
    · exact hc h
    · exact hone h
  unfold separator
  split
  · split
    · exact hone
    · exact htwo
  · exact List.not_mem_nil

/-- A text that is separated ends with an empty line. -/
theorem exists_separated {t : Text} (h : t ≠ []) :
    ∃ body, t ++ separator t = body ++ ['\n', '\n'] := by
  unfold separator
  by_cases htwo : "\n\n".toList.isSuffixOf t = true
  · rw [if_neg fun h' ↦ h'.2 htwo, List.append_nil]
    obtain ⟨body, hbody⟩ := List.isSuffixOf_iff_suffix.mp htwo
    exact ⟨body, hbody.symm⟩
  · rw [if_pos ⟨h, htwo⟩]
    by_cases hone : "\n".toList.isSuffixOf t = true
    · obtain ⟨body, hbody⟩ := List.isSuffixOf_iff_suffix.mp hone
      rw [if_pos hone, ← hbody, List.append_assoc]
      exact ⟨body, rfl⟩
    · rw [if_neg hone]
      exact ⟨t, rfl⟩

theorem separated_whole (t : Text) : Whole '\n' (t ++ separator t) := by
  by_cases h : t = []
  · rw [h]
    exact whole_nil
  · obtain ⟨body, hbody⟩ := exists_separated h
    rw [hbody]
    exact .inr ⟨body ++ ['\n'], by rw [List.append_assoc]; rfl⟩

/-- The lines of a text stay when a separator follows. -/
theorem lines_separated (s t : Text) :
    (s.splitOn '\n').Sublist ((s ++ separator t).splitOn '\n') := by
  rcases separator_cases t with h | ⟨more, h⟩
  · rw [h, List.append_nil]
  · rw [h, List.splitOn_append_cons_self]
    exact List.sublist_append_left _ _

/-- The Layer 4 block of a text that has none yet lands between two of its lines: where the text
with the new block behind it has a global options block, that block closes in the text itself, at
the start of a line. -/
def LandsBetweenLines (t : Text) (c : Call) : Prop :=
  ∀ close ∈ globalOptionsClose (t ++ separator t ++ managedBlock c.host c.turnHost c.port),
    close < t.length ∧ (t.take close).getLast? = some '\n'

/-- What follows the Layer 4 block, without the line feed that the first fence begins with. -/
theorem exists_rest {t body : Text} (hfree : MarkerFree t) (hbrace : t.head? = some '\x7d')
    (hbody : t = body ++ ['\n', '\n']) : ∃ rest, t = rest ++ ['\n'] ∧ Whole '\n' rest ∧
      MarkerFree rest ∧ rest.head? = some '\x7d' := by
  refine ⟨body ++ ['\n'], by rw [hbody, List.append_assoc]; rfl, whole_snoc body, ?_, ?_⟩
  · exact hfree.mono ⟨[], ['\n'], by rw [hbody]; simp⟩
  · cases body with
    | nil =>
      rw [hbody] at hbrace
      exact absurd hbrace (by decide)
    | cons c body =>
      rw [hbody] at hbrace
      exact hbrace

/-- The text from a brace on is followed by a separator, too. -/
theorem exists_drop_separated {t : Text} {n : Nat} (hn : n < t.length)
    (hbrace : (t.drop n).head? = some '\x7d') :
    ∃ body, t.drop n ++ separator t = body ++ ['\n', '\n'] := by
  obtain ⟨body, hbody⟩ := exists_separated (List.ne_nil_of_length_pos (Nat.zero_lt_of_lt hn))
  have hdrop : t.drop n ++ separator t = (body ++ ['\n', '\n']).drop n := by
    rw [← hbody, List.drop_append_of_le_length (Nat.le_of_lt hn)]
  have hle : n ≤ body.length := by
    by_contra hlt
    have hget : (body ++ ['\n', '\n'])[n]? = some '\x7d' := by
      rw [← hbody, List.getElem?_append_left hn, ← List.head?_drop]
      exact hbrace
    rw [List.getElem?_append_right (by omega)] at hget
    have hmem := List.mem_of_getElem? hget
    exact absurd hmem (by decide)
  exact ⟨body.drop n, by rw [hdrop, List.drop_append_of_le_length hle]⟩

theorem whole_globalOpen : Whole '\n' globalOpen := whole_snoc ['\x7b']

theorem whole_globalClose : Whole '\n' globalClose := whole_snoc ['\x7d', '\n']

/-- The document of a first edit. -/
def firstDoc (c : Call) (hc : c.Clean) (top rest : Text) (htop : Whole '\n' top)
    (htopFree : MarkerFree top) (hrest : Whole '\n' rest) (hrestFree : MarkerFree rest)
    (hbrace : rest.head? = some '\x7d') : Doc :=
  { top := top, turnHost := c.turnHost, turnPort := c.turnPort, turnsPort := c.turnsPort
    rest := rest, sites := [c.site hc], top_whole := htop, top_free := htopFree
    turn_free := hc.turn_free, rest_whole := hrest, rest_free := hrestFree, rest_brace := hbrace
    nonempty := List.cons_ne_nil _ _, nodup := List.nodup_singleton _ }

/-- A first edit puts the new block behind the operator's text and then the Layer 4 block into
it. -/
theorem edit_operator_eq {op : Text} (hop : MarkerFree op) (c : Call) (hc : c.Clean) : edit op c =
    let out := op ++ separator op ++ (c.site hc).block
    let layer := indent (layer4Block c.turnHost c.turnPort c.turnsPort) ['\t']
    match globalOptionsClose out with
    | some close => out.take close ++ ['\n'] ++ layer ++ out.drop close
    | none => globalOpen ++ layer ++ globalClose ++ out := by
  obtain ⟨marker, hmarker, hstarts⟩ := begin_marker c.host
  have hnone : replaceManaged op c.host (c.site hc).block = none := by
    unfold replaceManaged
    rw [find_eq_none_iff.mpr (hop.absent hmarker hstarts)]
    rfl
  have hout : find layer4Begin (op ++ separator op ++ (c.site hc).block) = none := by
    obtain ⟨layer, hlayer, hlayerPrefix⟩ := layer4Begin_marker
    obtain ⟨hbegin, hend, -⟩ := layer4_not_prefix c.host
    have hfree : MarkerFree (op ++ separator op) :=
      hop.append_last (notMem_separator op (by decide))
    exact find_eq_none_iff.mpr (not_infix_append newline_notMem_layer4Begin (separated_whole op)
      (hfree.absent hlayer hlayerPrefix)
      (not_infix_block newline_notMem_layer4Begin layer4Begin_marker hbegin hend))
  unfold edit upsertManagedBlock
  change upsertLayer4Global ((replaceManaged op c.host (c.site hc).block).getD
    (op ++ separator op ++ (c.site hc).block)) c.turnHost c.turnPort c.turnsPort = _
  rw [hnone, Option.getD_none]
  exact upsertLayer4Global_of_absent hout _ _ _

instance (t : Text) (c : Call) : Decidable (LandsBetweenLines t c) := by
  unfold LandsBetweenLines
  infer_instance

/-- The first edit of an operator's text makes it a document with the operator's lines. -/
theorem edit_operator {op : Text} (hop : MarkerFree op) (c : Call) (hc : c.Clean)
    (hlands : LandsBetweenLines op c) : ∃ d : Doc, edit op c = d.text ∧ d.sites = [c.site hc] ∧
      d.Turns c ∧ (op.splitOn '\n').Sublist ((d.top ++ (d.rest ++ ['\n'])).splitOn '\n') := by
  have hfree : MarkerFree (op ++ separator op) :=
    hop.append_last (notMem_separator op (by decide))
  have hedit := edit_operator_eq hop c hc
  cases hclose : globalOptionsClose (op ++ separator op ++ (c.site hc).block) with
  | none =>
    simp only [hclose] at hedit
    rw [hedit]
    have hbody : ∃ body, globalClose ++ (op ++ separator op) = body ++ ['\n', '\n'] := by
      by_cases hnil : op = []
      · rw [hnil]
        exact ⟨['\x7d'], rfl⟩
      · obtain ⟨body, hbody⟩ := exists_separated hnil
        exact ⟨globalClose ++ body, by rw [hbody, List.append_assoc]⟩
    obtain ⟨body, hbody⟩ := hbody
    obtain ⟨rest, hrest, hwhole, hrestFree, hbrace⟩ :=
      exists_rest (hfree.append_head (s := globalClose) (by decide)) rfl hbody
    refine ⟨firstDoc c hc globalOpen rest whole_globalOpen (.of_notMem (by decide)) hwhole
      hrestFree hbrace, ?_, rfl, ⟨rfl, rfl, rfl⟩, ?_⟩
    · have hjoin : rest ++ '\n' :: (c.site hc).block =
          globalClose ++ (op ++ separator op ++ (c.site hc).block) := by
        rw [← List.append_assoc globalClose, hrest, List.append_assoc, List.singleton_append]
      change _ = globalOpen ++ (_ ++ rest) ++ fenced [c.site hc]
      rw [fenced_singleton]
      simp only [List.append_assoc] at hjoin ⊢
      rw [hjoin]
      rfl
    · change List.Sublist _ ((globalOpen ++ (rest ++ ['\n'])).splitOn '\n')
      rw [← hrest, splitOn_append whole_globalOpen, splitOn_append whole_globalClose]
      exact (lines_separated op op).trans
        ((List.sublist_append_right _ _).trans (List.sublist_append_right _ _))
  | some close =>
    simp only [hclose] at hedit
    rw [hedit]
    obtain ⟨hlt, hlast⟩ := hlands close hclose
    have hdrop : (op ++ separator op ++ (c.site hc).block).drop close =
        op.drop close ++ separator op ++ (c.site hc).block := by
      rw [List.append_assoc, List.drop_append_of_le_length (Nat.le_of_lt hlt), List.append_assoc]
    have htake : (op ++ separator op ++ (c.site hc).block).take close = op.take close := by
      rw [List.append_assoc, List.take_append_of_le_length (Nat.le_of_lt hlt)]
    have hne : op.drop close ≠ [] := by
      rw [Ne, List.drop_eq_nil_iff]
      exact Nat.not_le.mpr hlt
    have hbrace : (op.drop close).head? = some '\x7d' := by
      have hhead := head?_globalOptionsClose hclose
      rwa [hdrop, List.append_assoc, List.head?_append_of_ne_nil _ hne] at hhead
    have hop' : op = op.take close ++ op.drop close := (List.take_append_drop close op).symm
    have htopFree : MarkerFree (op.take close) := hop.mono (List.take_prefix close op).isInfix
    have htopWhole : Whole '\n' (op.take close) :=
      .inr ((List.getLast?_eq_some_iff).mp hlast)
    obtain ⟨body, hbody⟩ := exists_drop_separated hlt hbrace
    have hdropFree : MarkerFree (op.drop close ++ separator op) :=
      (hop.mono (List.drop_suffix close op).isInfix).append_last (notMem_separator op (by decide))
    obtain ⟨rest, hrest, hwhole, hrestFree, hrestBrace⟩ := exists_rest hdropFree
      (by rw [List.head?_append_of_ne_nil _ hne, hbrace]) hbody
    refine ⟨firstDoc c hc (op.take close ++ ['\n']) rest (whole_snoc _)
      (htopFree.append_last (by decide)) hwhole hrestFree hrestBrace, ?_, rfl, ⟨rfl, rfl, rfl⟩, ?_⟩
    · change _ = op.take close ++ ['\n'] ++ (_ ++ rest) ++ fenced [c.site hc]
      rw [fenced_singleton, htake, hdrop, hrest]
      simp only [List.append_assoc, List.cons_append, List.nil_append]
      rfl
    · change List.Sublist _ ((op.take close ++ ['\n'] ++ (rest ++ ['\n'])).splitOn '\n')
      rw [← hrest, List.append_assoc, splitOn_append htopWhole, List.singleton_append,
        List.splitOn_cons_eq_if_modifyHead, if_pos (beq_self_eq_true _)]
      have hsplit := congrArg (List.splitOn '\n') hop'
      rw [splitOn_append htopWhole] at hsplit
      rw [hsplit]
      exact ((lines_separated (op.drop close) op).trans (List.sublist_cons_self _ _)).append_left _

/-! ### The lines of a document -/

/-- The lines between the markers of a site. -/
def Site.lines (s : Site) : List Text := wholeLines '\n' (siteBlock s.host s.turnHost s.port)

/-- The lines of a fence and of the empty line before it. -/
def Site.fence (s : Site) : List Text :=
  [] :: beginMarker s.host :: (s.lines ++ [endMarker s.host])

theorem whole_newline : Whole '\n' ['\n'] := whole_snoc []

theorem whole_fence (s : Site) : Whole '\n' ('\n' :: s.block) :=
  whole_newline.append (block_whole s)

theorem wholeLines_fence (s : Site) : wholeLines '\n' ('\n' :: s.block) = s.fence := by
  have hbegin := wholeLines_snoc (newline_notMem_beginMarker s.line)
  have hend := wholeLines_snoc (newline_notMem_endMarker s.line)
  rw [block_eq, ← List.singleton_append, wholeLines_append whole_newline,
    wholeLines_append (head_whole s), wholeLines_append (whole_snoc _), hbegin, hend]
  rfl

theorem lines_text (d : Doc) : d.text.splitOn '\n' =
    wholeLines '\n' d.front ++ (d.sites.flatMap Site.fence ++ [[]]) := by
  have hfences : wholeLines '\n' (fenced d.sites) = d.sites.flatMap Site.fence := by
    rw [fenced, wholeLines_flatMap fun s _ ↦ whole_fence s]
    simp only [wholeLines_fence]
  rw [Doc.text, splitOn_append (front_whole d), splitOn_of_whole (fenced_whole d.sites), hfences]

/-- The lines of the operator are lines of the document. -/
theorem sublist_lines (d : Doc) :
    ((d.top ++ (d.rest ++ ['\n'])).splitOn '\n').Sublist (d.text.splitOn '\n') := by
  have hnewline : ['\n'].splitOn '\n' = [[], []] := splitOn_of_whole whole_newline
  obtain ⟨s, sites, hsites⟩ := List.exists_cons_of_ne_nil d.nonempty
  have hends : [[], []].Sublist (d.sites.flatMap Site.fence ++ [[]]) := by
    rw [hsites]
    exact (List.sublist_append_right _ [[]]).cons_cons []
  rw [lines_text, splitOn_append d.top_whole, splitOn_append d.rest_whole, hnewline, Doc.front,
    wholeLines_append d.top_whole, wholeLines_append (layer4_whole d), List.append_assoc,
    List.append_assoc]
  exact ((hends.append_left _).trans (List.sublist_append_right _ _)).append_left _

/-! ### Fences -/

/-- A line that opens or closes the fence of a host. -/
def IsMarkerOf (host line : Text) : Prop := line = beginMarker host ∨ line = endMarker host

/-- A text has exactly one fenced block of a host, with the given lines in it. -/
def Fence (t host : Text) (body : List Text) : Prop :=
  ∃ before after, t.splitOn '\n' = before ++ beginMarker host :: (body ++ endMarker host :: after) ∧
    ∀ line, IsMarkerOf host line → line ∉ before ∧ line ∉ body ∧ line ∉ after

theorem beginMarker_ne_endMarker (host host' : Text) : beginMarker host ≠ endMarker host' := by
  intro h
  have hthird : (beginMarker host)[2]? = some '>' := rfl
  rw [h] at hthird
  exact absurd hthird (by
    have hthird' : (endMarker host')[2]? = some '<' := rfl
    rw [hthird']
    decide)

theorem IsMarkerOf.marker {host line : Text} (h : IsMarkerOf host line) :
    ∃ marker ∈ markers, marker <+: line := by
  rcases h with rfl | rfl
  · exact begin_marker host
  · exact end_marker host

/-- A text without markers has no line that is one. -/
theorem MarkerFree.notMem_lines {t host line : Text} (h : MarkerFree t)
    (hline : IsMarkerOf host line) : line ∉ t.splitOn '\n' := by
  intro hmem
  obtain ⟨marker, hmarker, hstarts⟩ := hline.marker
  exact h.absent hmarker hstarts (infix_of_mem_splitOn hmem)

theorem notMem_lines_front (d : Doc) {host line : Text} (hline : IsMarkerOf host line) :
    line ∉ wholeLines '\n' d.front := by
  intro hmem
  have hnewline := notMem_of_mem_splitOn (List.dropLast_subset _ hmem)
  have hother : ¬line <+: layer4Begin ++ ['\n'] ∧ ¬line <+: layer4End ++ ['\n'] := by
    rcases hline with rfl | rfl
    · exact ⟨(beginMarker_not_start host).1, (beginMarker_not_start host).2.1⟩
    · exact ⟨(endMarker_not_start host).1, (endMarker_not_start host).2.1⟩
  exact not_infix_front hnewline hline.marker d hother.1 hother.2 (infix_of_mem_wholeLines hmem)

theorem notMem_lines_site (s : Site) {host line : Text} (hline : IsMarkerOf host line) :
    line ∉ s.lines := fun hmem ↦
  (siteBlock_markerFree s.free s.turn_free s.port).notMem_lines hline (List.dropLast_subset _ hmem)

/-- The fence of a site has the markers of its host only. -/
theorem host_of_mem_fence {s : Site} {host line : Text} (hline : IsMarkerOf host line)
    (h : line ∈ s.fence) : host = s.host := by
  rw [Site.fence, List.mem_cons, List.mem_cons, List.mem_append, List.mem_singleton] at h
  rcases h with hnil | hbegin | hbody | hend
  · obtain ⟨marker, hmarker, hstarts⟩ := hline.marker
    obtain ⟨tail, rfl⟩ := marker_head hmarker
    rw [hnil] at hstarts
    exact absurd (List.prefix_nil.mp hstarts) (List.cons_ne_nil _ _)
  · rcases hline with rfl | rfl
    · exact List.append_cancel_left hbegin
    · exact absurd hbegin.symm (beginMarker_ne_endMarker _ _)
  · exact absurd hbody (notMem_lines_site s hline)
  · rcases hline with rfl | rfl
    · exact absurd hend (beginMarker_ne_endMarker _ _)
    · exact List.append_cancel_left hend

theorem notMem_fences {sites : List Site} {host line : Text} (hline : IsMarkerOf host line)
    (h : ∀ s ∈ sites, s.host ≠ host) : line ∉ sites.flatMap Site.fence := by
  intro hmem
  obtain ⟨s, hs, hfence⟩ := List.mem_flatMap.mp hmem
  exact h s hs (host_of_mem_fence hline hfence).symm

theorem notMem_nil_line {host line : Text} (hline : IsMarkerOf host line) :
    line ∉ [([] : Text)] := by
  intro hmem
  rw [List.mem_singleton.mp hmem] at hline
  have hfree : MarkerFree [] := .of_notMem List.not_mem_nil
  exact hfree.notMem_lines hline (List.mem_singleton_self _)

/-- A document has no marker of a host that it does not have. -/
theorem notMem_lines_text (d : Doc) {host line : Text} (hline : IsMarkerOf host line)
    (h : ∀ s ∈ d.sites, s.host ≠ host) : line ∉ d.text.splitOn '\n' := by
  rw [lines_text, List.mem_append, List.mem_append, not_or, not_or]
  exact ⟨notMem_lines_front d hline, notMem_fences hline h, notMem_nil_line hline⟩

/-- A document has one fenced block of each of its hosts. -/
theorem fence_of_mem (d : Doc) {s : Site} (h : s ∈ d.sites) : Fence d.text s.host s.lines := by
  obtain ⟨before, after, hsites⟩ := List.append_of_mem h
  have hnodup := d.nodup
  rw [hsites, List.map_append, List.map_cons, List.nodup_middle, List.nodup_cons,
    List.mem_append, not_or] at hnodup
  obtain ⟨⟨hbefore, hafter⟩, -⟩ := hnodup
  have hne : ∀ {sites : List Site}, s.host ∉ sites.map Site.host → ∀ t ∈ sites, t.host ≠ s.host :=
    fun hnot t ht heq ↦ hnot (heq ▸ List.mem_map_of_mem ht)
  refine ⟨wholeLines '\n' d.front ++ (before.flatMap Site.fence ++ [[]]),
    after.flatMap Site.fence ++ [[]], ?_, fun line hline ↦ ⟨?_, notMem_lines_site s hline, ?_⟩⟩
  · rw [lines_text, hsites, List.flatMap_append, List.flatMap_cons, Site.fence]
    simp only [List.append_assoc, List.cons_append, List.nil_append]
  · rw [List.mem_append, List.mem_append, not_or, not_or]
    exact ⟨notMem_lines_front d hline, notMem_fences hline (hne hbefore), notMem_nil_line hline⟩
  · rw [List.mem_append, not_or]
    exact ⟨notMem_fences hline (hne hafter), notMem_nil_line hline⟩

/-- A fenced block is found in one way. -/
theorem Fence.unique {t host : Text} {body body' : List Text} (h : Fence t host body)
    (h' : Fence t host body') : body = body' := by
  obtain ⟨before, after, hlines, hnot⟩ := h
  obtain ⟨before', after', hlines', hnot'⟩ := h'
  obtain ⟨hbefore, hbody, hafter⟩ := hnot (beginMarker host) (.inl rfl)
  obtain ⟨-, hbody', hafter'⟩ := hnot (endMarker host) (.inr rfl)
  have hrest : beginMarker host ∉ body ++ endMarker host :: after := by
    rw [List.mem_append, List.mem_cons, not_or, not_or]
    exact ⟨hbody, beginMarker_ne_endMarker host host, hafter⟩
  have hsplit := (List.append_cons_inj_of_notMem hbefore hrest).mp (hlines.symm.trans hlines')
  exact ((List.append_cons_inj_of_notMem hbody' hafter').mp hsplit.2.2).1

/-! ### Runs -/

/-- A call does not disturb what is not its own: its host is one line, and neither host has a
marker; where the text has the first marker of the host, the line ends behind it; and if the text
has no Layer 4 block yet, the new one lands between two lines. -/
structure Undisturbed (t : Text) (c : Call) : Prop where
  clean : c.Clean
  own : ∀ found ∈ find (beginMarker c.host) t,
    (found.2.drop (beginMarker c.host).length).head? = some '\n'
  lands : find layer4Begin t = none → LandsBetweenLines t c

instance (t : Text) (c : Call) : Decidable (Undisturbed t c) :=
  decidable_of_iff (c.Clean ∧ (∀ found ∈ find (beginMarker c.host) t,
      (found.2.drop (beginMarker c.host).length).head? = some '\n') ∧
      (find layer4Begin t = none → LandsBetweenLines t c))
    ⟨fun ⟨h, h', h''⟩ ↦ ⟨h, h', h''⟩, fun h ↦ ⟨h.clean, h.own, h.lands⟩⟩

/-- Where the first marker of a host is a line, it is the host's own. -/
theorem fits_of_own {d : Doc} {host : Text} (hline : '\n' ∉ host)
    (h : ∀ found ∈ find (beginMarker host) d.text,
      (found.2.drop (beginMarker host).length).head? = some '\n') : d.Fits host := by
  intro host' hhost'
  rw [List.find?_map, Option.mem_def, Option.map_eq_some_iff] at hhost'
  obtain ⟨s, hs, rfl⟩ := hhost'
  obtain ⟨hstarts, before, after, hsites, hbefore⟩ := List.find?_eq_some_iff_append.mp hs
  have hstarts := List.isPrefixOf_iff_prefix.mp hstarts
  have hbefore : ∀ t ∈ before, ¬host <+: t.host := by
    intro t ht hpre
    have ht' := hbefore t ht
    rw [Function.comp_apply, List.isPrefixOf_iff_prefix.mpr hpre] at ht'
    cases ht'
  have hown := h _ (find_beginMarker d hline hsites hbefore hstarts)
  obtain ⟨tail, htail⟩ := hstarts
  have hblock : s.block ++ fenced after = beginMarker host ++ (tail ++ '\n' ::
      (siteBlock s.host s.turnHost s.port ++ (endMarker s.host ++ ['\n']) ++ fenced after)) := by
    rw [block_eq]
    simp only [beginMarker, ← htail, List.append_assoc, List.cons_append, List.nil_append]
  rw [hblock, List.drop_left' rfl] at hown
  cases tail with
  | nil => rw [← htail, List.append_nil]
  | cons c tail =>
    obtain rfl := Option.some.inj hown
    exact absurd (htail ▸ List.mem_append_right host List.mem_cons_self) s.line

/-- What a run of calls has made of an operator's text: a document with its lines, with the hosts
of the calls, and with the blocks of the last call. -/
structure Reached (op : Text) (before : List Call) (c : Call) (hc : c.Clean) (d : Doc) : Prop where
  text : Lib.Replay.run edit op (before ++ [c]) = d.text
  kept : (op.splitOn '\n').Sublist ((d.top ++ (d.rest ++ ['\n'])).splitOn '\n')
  hosts : ∀ host, host ∈ d.sites.map Site.host ↔ host ∈ (before ++ [c]).map Call.host
  site : c.site hc ∈ d.sites
  turns : d.Turns c
  fits : d.Fits c.host

theorem mem_hosts_place (s : Site) (sites : List Site) (host : Text) :
    host ∈ (place s sites).map Site.host ↔ host ∈ sites.map Site.host ∨ host = s.host := by
  rw [hosts_place]
  split
  · next hmem =>
    refine ⟨.inl, fun h ↦ h.elim id fun heq ↦ ?_⟩
    rwa [heq]
  · rw [List.mem_append, List.mem_singleton]

theorem exists_reached {op : Text} (hop : MarkerFree op) (before : List Call) (c : Call)
    (h : AllSteps edit Undisturbed op (before ++ [c])) : ∃ hc d, Reached op before c hc d := by
  induction before using List.reverseRecOn generalizing c with
  | nil =>
    obtain ⟨marker, hmarker, hstarts⟩ := layer4Begin_marker
    have hstep : Undisturbed op c := h.1
    have hlands := hstep.lands (find_eq_none_iff.mpr (hop.absent hmarker hstarts))
    obtain ⟨d, htext, hsites, hturns, hkept⟩ := edit_operator hop c hstep.clean hlands
    refine ⟨hstep.clean, d, htext, hkept, fun host ↦ ?_, ?_, hturns, ?_⟩
    · rw [hsites]
      exact Iff.rfl
    · rw [hsites]
      exact List.mem_singleton_self _
    · intro host' hhost'
      rw [hsites] at hhost'
      exact List.mem_singleton.mp (List.mem_of_find?_eq_some hhost')
  | append_singleton before b ih =>
    obtain ⟨hbefore, hlast⟩ := allSteps_append_iff.mp h
    obtain ⟨hb, d, hd⟩ := ih b hbefore
    have hstep : Undisturbed d.text c := hd.text ▸ hlast.1
    have hfits := fits_of_own hstep.clean.line hstep.own
    refine ⟨hstep.clean, d.install c hstep.clean, ?_, hd.kept, fun host ↦ ?_,
      mem_place _ _, ⟨rfl, rfl, rfl⟩, fits_install hstep.clean hfits⟩
    · rw [run_append, hd.text]
      exact edit_text d c hstep.clean hfits
    · change host ∈ (place (c.site hstep.clean) d.sites).map Site.host ↔ _
      rw [mem_hosts_place, hd.hosts, @List.map_append _ _ _ (before ++ [b]), List.mem_append]
      exact or_congr_right List.mem_singleton.symm

/-- What an operator relies on after calls on a text. -/
structure Lawful (op : Text) (calls : List Call) : Prop where
  kept : (op.splitOn '\n').Sublist ((Lib.Replay.run edit op calls).splitOn '\n')
  fenced : ∀ host ∈ calls.map Call.host, ∃ body, Fence (Lib.Replay.run edit op calls) host body
  absent : ∀ host ∉ calls.map Call.host, ∀ line, IsMarkerOf host line →
    line ∉ (Lib.Replay.run edit op calls).splitOn '\n'
  again : ∀ before c, calls = before ++ [c] →
    edit (Lib.Replay.run edit op calls) c = Lib.Replay.run edit op calls
  untouched : ∀ before c, calls = before ++ [c] → ∀ host ≠ c.host, ∀ body,
    Fence (Lib.Replay.run edit op before) host body →
      Fence (Lib.Replay.run edit op calls) host body

/-- A document lacks the fences of the hosts that it does not have. -/
theorem exists_site_of_fence {d : Doc} {host : Text} {body : List Text}
    (h : Fence d.text host body) : ∃ s ∈ d.sites, s.host = host := by
  by_contra hnone
  obtain ⟨before, after, hlines, -⟩ := h
  refine notMem_lines_text d (.inl rfl : IsMarkerOf host _)
    (fun s hs heq ↦ hnone ⟨s, hs, heq⟩) ?_
  rw [hlines]
  exact List.mem_append_right _ List.mem_cons_self

/-- The fences of other hosts stay when a host is installed. -/
theorem fence_install {d : Doc} {c : Call} (hc : c.Clean) {host : Text} (hne : host ≠ c.host)
    {body : List Text} (h : Fence d.text host body) : Fence (d.install c hc).text host body := by
  obtain ⟨s, hs, rfl⟩ := exists_site_of_fence h
  rw [h.unique (fence_of_mem d hs)]
  exact fence_of_mem (d.install c hc) (mem_place_of_ne hs hne)

/-- The fences of other hosts stay in the last call of a run. -/
theorem fence_run_append {op : Text} (hop : MarkerFree op) {before : List Call} {c : Call}
    (h : AllSteps edit Undisturbed op (before ++ [c])) {host : Text} (hne : host ≠ c.host)
    {body : List Text} (hfence : Fence (Lib.Replay.run edit op before) host body) :
    Fence (Lib.Replay.run edit op (before ++ [c])) host body := by
  obtain ⟨hbefore, hlast⟩ := allSteps_append_iff.mp h
  rcases List.eq_nil_or_concat before with rfl | ⟨first, b, hfirst⟩
  · obtain ⟨pre, post, hlines, -⟩ := hfence
    refine absurd ?_ (hop.notMem_lines (.inl rfl : IsMarkerOf host _))
    change op.splitOn '\n' = _ at hlines
    rw [hlines]
    exact List.mem_append_right _ List.mem_cons_self
  · rw [hfirst, List.concat_eq_append] at hbefore hlast hfence ⊢
    obtain ⟨hb, d, hd⟩ := exists_reached hop first b hbefore
    have hstep : Undisturbed d.text c := hd.text ▸ hlast.1
    rw [run_append, hd.text]
    change Fence (edit d.text c) host body
    rw [edit_text d c hstep.clean (fits_of_own hstep.clean.line hstep.own)]
    exact fence_install hstep.clean hne (hd.text ▸ hfence)

/-- Calls that disturb nothing are lawful: on an operator's text without markers, every line of the
operator stays in its place, each host that was installed has one fenced block, the blocks of other
hosts stay as they are, and the same call again changes nothing. -/
theorem caddyfile_edits_lawful {op : Text} (hop : MarkerFree op) {calls : List Call}
    (h : AllSteps edit Undisturbed op calls) : Lawful op calls := by
  rcases List.eq_nil_or_concat calls with rfl | ⟨before, c, hcalls⟩
  · refine ⟨List.Sublist.refl _, fun host hhost ↦ ?_, fun host _ line hline ↦ ?_, ?_, ?_⟩
    · cases hhost
    · exact hop.notMem_lines hline
    · intro before c hcalls
      simp at hcalls
    · intro before c hcalls
      simp at hcalls
  rw [List.concat_eq_append] at hcalls
  subst hcalls
  obtain ⟨hc, d, hd⟩ := exists_reached hop before c h
  refine ⟨?_, fun host hhost ↦ ?_, fun host hhost line hline ↦ ?_, ?_, ?_⟩
  · rw [hd.text]
    exact hd.kept.trans (sublist_lines d)
  · obtain ⟨s, hs, rfl⟩ := List.mem_map.mp ((hd.hosts host).mpr hhost)
    rw [hd.text]
    exact ⟨s.lines, fence_of_mem d hs⟩
  · rw [hd.text]
    exact notMem_lines_text d hline fun s hs heq ↦
      hhost ((hd.hosts host).mp (List.mem_map.mpr ⟨s, hs, heq⟩))
  · intro before' c' heq
    obtain ⟨-, hlast⟩ := List.append_inj' heq rfl
    obtain rfl := List.head_eq_of_cons_eq hlast
    rw [hd.text, edit_text d c hc hd.fits, install_of_mem hc hd.site hd.turns]
  · intro before' c' heq host hne body hfence
    obtain ⟨rfl, hlast⟩ := List.append_inj' heq rfl
    obtain rfl := List.head_eq_of_cons_eq hlast
    exact fence_run_append hop h hne hfence

/-- A call for a host name. -/
def callFor (host : String) : Call :=
  { host := host.toList, turnHost := ['t'], port := 1, turnPort := 2, turnsPort := 3 }

/-- A host is installed behind the operator's site, and then one whose name goes on. -/
theorem longer_name_installed :
    Lawful "x \x7b\n\x7d\n".toList [callFor "a", callFor "ab"] := by
  have hsteps : MarkerFree "x \x7b\n\x7d\n".toList ∧
      AllSteps edit Undisturbed "x \x7b\n\x7d\n".toList [callFor "a", callFor "ab"] := by
    decide +kernel
  exact caddyfile_edits_lawful hsteps.1 hsteps.2

/-- Installed the other way round, the host with the shorter name takes the fence of the other. -/
theorem shorter_name_takes_fence :
    ¬∀ (op : Text), MarkerFree op → ∀ calls : List Call, Lawful op calls := by
  intro hall
  have hlawful := hall [] (by decide) [callFor "ab", callFor "a"]
  obtain ⟨body, before, after, hlines, -⟩ := hlawful.fenced "ab".toList (by decide)
  have hmem : beginMarker "ab".toList ∈
      (Lib.Replay.run edit [] [callFor "ab", callFor "a"]).splitOn '\n' := by
    rw [hlines]
    exact List.mem_append_right _ List.mem_cons_self
  have hgone : beginMarker "ab".toList ∉
      (Lib.Replay.run edit [] [callFor "ab", callFor "a"]).splitOn '\n' := by
    decide +kernel
  exact hgone hmem

end MyOwnMesh.Caddy

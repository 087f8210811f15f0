import MyOwnMesh.Cli.Caddy

/-!
# Marker comments

The comments that fence the blocks of a Caddyfile start with one of two words. A text without the
words has no marker, wherever its lines are put; the blocks have the markers that they are fenced
with and no others.
-/

namespace MyOwnMesh.Caddy

open Lib.Text Lib.Search

/-! ### Markers -/

/-- What every marker comment starts with. -/
def markers : List Text := ["# >>> myownmesh-".toList, "# <<< myownmesh-".toList]

/-- A text in which no marker starts. -/
def MarkerFree (text : Text) : Prop := ∀ marker ∈ markers, ¬marker <:+: text

instance (text : Text) : Decidable (MarkerFree text) := by
  unfold MarkerFree
  infer_instance

theorem marker_head {marker : Text} (h : marker ∈ markers) : ∃ tail, marker = '#' :: tail := by
  simp only [markers, List.mem_cons, List.not_mem_nil, or_false] at h
  rcases h with rfl | rfl
  · exact ⟨_, rfl⟩
  · exact ⟨_, rfl⟩

theorem marker_last {marker : Text} (h : marker ∈ markers) : ∃ body, marker = body ++ ['-'] := by
  simp only [markers, List.mem_cons, List.not_mem_nil, or_false] at h
  rcases h with rfl | rfl
  · exact ⟨"# >>> myownmesh".toList, rfl⟩
  · exact ⟨"# <<< myownmesh".toList, rfl⟩

theorem newline_notMem_marker {marker : Text} (h : marker ∈ markers) : '\n' ∉ marker := by
  simp only [markers, List.mem_cons, List.not_mem_nil, or_false] at h
  rcases h with rfl | rfl
  · decide
  · decide

namespace MarkerFree

variable {s t : Text}

theorem of_notMem (h : '#' ∉ t) : MarkerFree t := by
  intro marker hmarker hwithin
  obtain ⟨tail, rfl⟩ := marker_head hmarker
  exact h (hwithin.subset List.mem_cons_self)

theorem mono (h : MarkerFree t) (hs : s <:+: t) : MarkerFree s :=
  fun marker hmarker hwithin ↦ h marker hmarker (hwithin.trans hs)

/-- A marker does not reach from one line into the next. -/
theorem append (hs : MarkerFree s) (ht : MarkerFree t) (hwhole : Whole '\n' s) :
    MarkerFree (s ++ t) := fun marker hmarker ↦
  not_infix_append (newline_notMem_marker hmarker) hwhole (hs marker hmarker) (ht marker hmarker)

theorem append_head (hs : '#' ∉ s) (ht : MarkerFree t) : MarkerFree (s ++ t) := by
  intro marker hmarker
  obtain ⟨tail, hhead⟩ := marker_head hmarker
  exact not_infix_append_of_head hhead hs (ht marker hmarker)

theorem append_last (hs : MarkerFree s) (ht : '-' ∉ t) : MarkerFree (s ++ t) := by
  intro marker hmarker
  obtain ⟨body, hlast⟩ := marker_last hmarker
  exact not_infix_append_of_last hlast ht (hs marker hmarker)

/-- A pattern that starts with a marker is not found. -/
theorem absent {marker pat : Text} (h : MarkerFree t) (hmarker : marker ∈ markers)
    (hpat : marker <+: pat) : ¬pat <:+: t :=
  fun hwithin ↦ h marker hmarker (hpat.isInfix.trans hwithin)

end MarkerFree

theorem beginWord_marker : ∃ marker ∈ markers, marker <+: beginWord :=
  ⟨_, List.mem_cons_self, "managed: ".toList, rfl⟩

theorem endWord_marker : ∃ marker ∈ markers, marker <+: endWord :=
  ⟨_, List.mem_cons_of_mem _ List.mem_cons_self, "managed: ".toList, rfl⟩

theorem begin_marker (host : Text) : ∃ marker ∈ markers, marker <+: beginMarker host := by
  obtain ⟨marker, hmarker, hstarts⟩ := beginWord_marker
  exact ⟨marker, hmarker, hstarts.trans (List.prefix_append beginWord host)⟩

theorem end_marker (host : Text) : ∃ marker ∈ markers, marker <+: endMarker host := by
  obtain ⟨marker, hmarker, hstarts⟩ := endWord_marker
  exact ⟨marker, hmarker, hstarts.trans (List.prefix_append endWord host)⟩

theorem layer4Begin_marker : ∃ marker ∈ markers, marker <+: layer4Begin :=
  ⟨_, List.mem_cons_self, "turn-layer4".toList, rfl⟩

theorem layer4End_marker : ∃ marker ∈ markers, marker <+: layer4End :=
  ⟨_, List.mem_cons_of_mem _ List.mem_cons_self, "turn-layer4".toList, rfl⟩

/-! ### The blocks -/

theorem decimal_notMem (n : UInt16) {c : Char} (h : c.isDigit = false) : c ∉ decimal n := by
  intro hmem
  rw [Nat.isDigit_of_mem_toDigits (by decide) (by decide) hmem] at h
  cases h

theorem whole_siteMiddle : Whole '\n' siteMiddle :=
  Whole.append_of_ne_nil (.inr ⟨"\x7d\n".toList, rfl⟩) (by simp)

theorem whole_siteClose : Whole '\n' siteClose :=
  Whole.append_of_ne_nil (.inr ⟨"\x7d".toList, rfl⟩) (by simp)

theorem whole_layer4Close : Whole '\n' layer4Close :=
  Whole.append_of_ne_nil (.inr ⟨"\x7d".toList, rfl⟩) (by simp)

theorem siteBlock_whole (host turnHost : Text) (port : UInt16) :
    Whole '\n' (siteBlock host turnHost port) := by
  unfold siteBlock
  exact whole_siteClose.append_of_ne_nil (by decide)

/-- A site block has no marker unless its hosts have. -/
theorem siteBlock_markerFree {host turnHost : Text} (hhost : MarkerFree host)
    (hturn : MarkerFree turnHost) (port : UInt16) : MarkerFree (siteBlock host turnHost port) := by
  have hport : '-' ∉ decimal port := decimal_notMem port (by decide)
  have hhead : MarkerFree (host ++ siteOpen ++ decimal port ++ siteMiddle) :=
    ((hhost.append_last (by decide)).append_last hport).append_last (by decide)
  have hwhole : Whole '\n' (host ++ siteOpen ++ decimal port ++ siteMiddle) :=
    whole_siteMiddle.append_of_ne_nil (by decide)
  exact (hhead.append hturn hwhole).append_last (by decide)

/-- The Layer 4 block between its markers. -/
def layer4Body (turnHost : Text) (turnPort turnsPort : UInt16) : Text :=
  layer4Open.tail ++ decimal turnsPort ++ layer4Match ++ turnHost ++ layer4Route ++
    decimal turnPort ++ layer4Close

theorem layer4Block_eq (turnHost : Text) (turnPort turnsPort : UInt16) :
    layer4Block turnHost turnPort turnsPort = (layer4Begin ++ ['\n']) ++
      (layer4Body turnHost turnPort turnsPort ++ (layer4End ++ ['\n'])) := by
  have hopen : layer4Open = ['\n'] ++ layer4Open.tail := by decide
  unfold layer4Block layer4Body
  rw [hopen]
  simp only [List.append_assoc, List.cons_append, List.nil_append, List.tail_cons]

theorem layer4Body_whole (turnHost : Text) (turnPort turnsPort : UInt16) :
    Whole '\n' (layer4Body turnHost turnPort turnsPort) := by
  unfold layer4Body
  exact whole_layer4Close.append_of_ne_nil (by decide)

theorem layer4Body_markerFree {turnHost : Text} (h : MarkerFree turnHost)
    (turnPort turnsPort : UInt16) : MarkerFree (layer4Body turnHost turnPort turnsPort) := by
  have hhead : '#' ∉ layer4Open.tail ++ decimal turnsPort ++ layer4Match := by
    rw [List.mem_append, List.mem_append, not_or, not_or]
    exact ⟨⟨by decide, decimal_notMem turnsPort (by decide)⟩, by decide⟩
  have hport : '-' ∉ decimal turnPort := decimal_notMem turnPort (by decide)
  exact (((h.append_head hhead).append_last (by decide)).append_last hport).append_last (by decide)

theorem indent_append {s : Text} (hs : Whole '\n' s) (t pad : Text) :
    indent (s ++ t) pad = indent s pad ++ indent t pad := by
  rcases hs with rfl | ⟨body, rfl⟩
  · rfl
  · unfold indent
    rw [List.append_assoc, List.singleton_append, linesFrom_append, List.flatMap_append]

theorem indent_whole (s pad : Text) : Whole '\n' (indent s pad) :=
  Whole.flatMap fun line _ ↦ whole_snoc (pad ++ line)

theorem indent_markerFree {s pad : Text} (hs : MarkerFree s) (hpad : '#' ∉ pad) :
    MarkerFree (indent s pad) := by
  have hlines : ∀ ls : List Text, (∀ line ∈ ls, MarkerFree line) →
      MarkerFree (ls.flatMap fun line ↦ pad ++ line ++ ['\n']) := by
    intro ls
    induction ls with
    | nil => exact fun _ ↦ .of_notMem List.not_mem_nil
    | cons line ls ih =>
      intro hfree
      rw [List.flatMap_cons]
      refine .append ?_ (ih fun l hl ↦ hfree l (List.mem_cons_of_mem line hl)) (whole_snoc _)
      exact ((hfree line List.mem_cons_self).append_head hpad).append_last (by decide)
  exact hlines _ fun line hline ↦ hs.mono (infix_of_mem_linesFrom hline)

/-- The Layer 4 block as it stands in a text. -/
theorem indent_layer4Block (turnHost : Text) (turnPort turnsPort : UInt16) :
    indent (layer4Block turnHost turnPort turnsPort) ['\t'] =
      '\t' :: (layer4Begin ++ '\n' :: (indent (layer4Body turnHost turnPort turnsPort) ['\t'] ++
        '\t' :: (layer4End ++ ['\n']))) := by
  have hbegin : indent (layer4Begin ++ ['\n']) ['\t'] = '\t' :: (layer4Begin ++ ['\n']) := by decide
  have hend : indent (layer4End ++ ['\n']) ['\t'] = '\t' :: (layer4End ++ ['\n']) := by decide
  rw [layer4Block_eq, indent_append (whole_snoc layer4Begin),
    indent_append (layer4Body_whole turnHost turnPort turnsPort), hbegin, hend]
  simp only [List.cons_append, List.append_assoc, List.nil_append]

/-! ### Lines with markers -/

theorem newline_notMem_beginMarker {host : Text} (h : '\n' ∉ host) : '\n' ∉ beginMarker host := by
  rw [beginMarker, List.mem_append, not_or]
  exact ⟨by decide, h⟩

theorem newline_notMem_endMarker {host : Text} (h : '\n' ∉ host) : '\n' ∉ endMarker host := by
  rw [endMarker, List.mem_append, not_or]
  exact ⟨by decide, h⟩

theorem not_prefix_of_getElem? {s t : Text} (n : Nat) (hn : n < s.length) (h : s[n]? ≠ t[n]?) :
    ¬s <+: t := by
  rintro ⟨rest, rfl⟩
  exact h (List.getElem?_append_left hn).symm

/-- A line that starts with a word of a marker has a marker at its start or nowhere. -/
theorem not_infix_line {pat word host : Text} (hpat : ∃ marker ∈ markers, marker <+: pat)
    (hword : '#' ∉ word.tail) (hhost : MarkerFree host)
    (h : ¬pat <+: word ++ (host ++ ['\n'])) : ¬pat <:+: word ++ (host ++ ['\n']) := by
  obtain ⟨marker, hmarker, hstarts⟩ := hpat
  have hend : ¬pat <:+: host ++ ['\n'] := (hhost.append_last (by decide)).absent hmarker hstarts
  cases word with
  | nil => exact hend
  | cons c tail =>
    obtain ⟨rest, rfl⟩ := marker_head hmarker
    obtain ⟨more, rfl⟩ := hstarts
    change ¬_ <:+: c :: (tail ++ (host ++ ['\n']))
    rw [List.infix_cons_iff, not_or]
    exact ⟨h, not_infix_append_of_head rfl hword hend⟩

theorem not_infix_line_alone {pat word : Text} (hpat : ∃ marker ∈ markers, marker <+: pat)
    (hword : '#' ∉ word.tail) (h : ¬pat <+: word ++ ['\n']) : ¬pat <:+: word ++ ['\n'] :=
  not_infix_line hpat hword (.of_notMem List.not_mem_nil : MarkerFree []) h

/-- The marker of a host starts the line of another when the host starts the other. -/
theorem beginMarker_prefix_iff {host host' : Text} (h : '\n' ∉ host) :
    beginMarker host <+: beginMarker host' ++ ['\n'] ↔ host <+: host' := by
  rw [beginMarker, beginMarker, List.append_assoc, List.prefix_append_right_inj,
    List.prefix_concat_iff]
  refine ⟨fun h' ↦ h'.resolve_left fun heq ↦ h ?_, .inr⟩
  rw [heq]
  exact List.mem_append_right host' (List.mem_singleton_self _)

theorem endMarker_prefix_iff {host host' : Text} (h : '\n' ∉ host) :
    endMarker host <+: endMarker host' ++ ['\n'] ↔ host <+: host' := by
  rw [endMarker, endMarker, List.append_assoc, List.prefix_append_right_inj,
    List.prefix_concat_iff]
  refine ⟨fun h' ↦ h'.resolve_left fun heq ↦ h ?_, .inr⟩
  rw [heq]
  exact List.mem_append_right host' (List.mem_singleton_self _)

theorem length_beginMarker (host : Text) : 16 < (beginMarker host).length := by
  rw [beginMarker, List.length_append]
  exact Nat.lt_add_right _ (by decide)

theorem length_endMarker (host : Text) : 16 < (endMarker host).length := by
  rw [endMarker, List.length_append]
  exact Nat.lt_add_right _ (by decide)

/-- The first marker of a host starts no line but those of first markers of hosts. -/
theorem beginMarker_not_start (host : Text) : ¬beginMarker host <+: layer4Begin ++ ['\n'] ∧
    ¬beginMarker host <+: layer4End ++ ['\n'] ∧
    ∀ host', ¬beginMarker host <+: endMarker host' ++ ['\n'] := by
  have hlength := length_beginMarker host
  have hthird : (beginMarker host)[2]? = some '>' := rfl
  have hkind : (beginMarker host)[16]? = some 'm' := rfl
  refine ⟨not_prefix_of_getElem? 16 hlength ?_, not_prefix_of_getElem? 2 (by omega) ?_,
    fun host' ↦ not_prefix_of_getElem? 2 (by omega) ?_⟩
  · rw [hkind]
    decide
  · rw [hthird]
    decide
  · have hthird' : (endMarker host' ++ ['\n'])[2]? = some '<' := rfl
    rw [hthird, hthird']
    decide

/-- The last marker of a host starts no line but those of last markers of hosts. -/
theorem endMarker_not_start (host : Text) : ¬endMarker host <+: layer4Begin ++ ['\n'] ∧
    ¬endMarker host <+: layer4End ++ ['\n'] ∧
    ∀ host', ¬endMarker host <+: beginMarker host' ++ ['\n'] := by
  have hlength := length_endMarker host
  have hthird : (endMarker host)[2]? = some '<' := rfl
  have hkind : (endMarker host)[16]? = some 'm' := rfl
  refine ⟨not_prefix_of_getElem? 2 (by omega) ?_, not_prefix_of_getElem? 16 hlength ?_,
    fun host' ↦ not_prefix_of_getElem? 2 (by omega) ?_⟩
  · rw [hthird]
    decide
  · rw [hkind]
    decide
  · have hthird' : (beginMarker host' ++ ['\n'])[2]? = some '>' := rfl
    rw [hthird, hthird']
    decide

/-- The markers of the Layer 4 block start no line of a fence. -/
theorem layer4_not_prefix (host : Text) : ¬layer4Begin <+: beginMarker host ++ ['\n'] ∧
    ¬layer4Begin <+: endMarker host ++ ['\n'] ∧ ¬layer4End <+: beginMarker host ++ ['\n'] ∧
    ¬layer4End <+: endMarker host ++ ['\n'] := by
  have hbegin : (beginMarker host ++ ['\n'])[2]? = some '>' := rfl
  have hbegin' : (beginMarker host ++ ['\n'])[16]? = some 'm' := rfl
  have hend : (endMarker host ++ ['\n'])[2]? = some '<' := rfl
  have hend' : (endMarker host ++ ['\n'])[16]? = some 'm' := rfl
  refine ⟨not_prefix_of_getElem? 16 (by decide) ?_, not_prefix_of_getElem? 2 (by decide) ?_,
    not_prefix_of_getElem? 2 (by decide) ?_, not_prefix_of_getElem? 16 (by decide) ?_⟩
  · rw [hbegin']
    decide
  · rw [hend]
    decide
  · rw [hbegin]
    decide
  · rw [hend']
    decide

end MyOwnMesh.Caddy

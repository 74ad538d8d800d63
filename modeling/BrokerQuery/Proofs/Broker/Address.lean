import BrokerQuery.Proofs.Broker.Knowledge
import BrokerQuery.Proofs.Url.Path
/-
  Which data source a request for metadata addresses.

  The name of a data source is put into the path of the request as it is, and the path is read as a
  URL is: there a backslash is a slash, breaks do not count, dots are resolved, and an escape is one
  byte.  A name without these is addressed, every other one is not (`addresses_iff_plain`).

    1. Whatever the name is, the path is that of the folder of the data sources, with what the name
       is read as resolved after it (`path_fetching`).
    2. A plain name is read as one segment, which is decoded to the name (`addresses_of_plain`).
    3. The other way round, by length: a segment that is decoded to the name is as long as the name,
       and nothing that is read gets longer.  So nothing got shorter on the way: no break was
       dropped, no dot resolved and no escape decoded (`plain_of_addresses`).
-/

namespace BrokerQuery

open Text (bytes pieces)
open Url (percentDecode percentEncode inPathSet pathChars readPath resolveDots hasEscape isBreak
  isDot slashes extent Settled)

/-- A request asks a broker for what it has on a data source: it goes to the broker, without a
query, and its path is the broker's without the slashes at its end, the folder of the data sources,
and one segment that is decoded to the name. -/
structure Addresses (broker : Url.BrokerUrl) (name : String) (r : Request) : Prop where
  method : r.method = .get
  secure : r.url.secure = broker.secure
  host : r.url.host = broker.host
  port : r.url.port = broker.port
  query : r.url.query = none
  path : ∃ segment, '/' ∉ segment ∧ percentDecode segment = bytes name.toList ∧
    r.url.pathText =
      broker.pathText.rdropWhile (· = '/') ++ "/datasources/".toList ++ segment

/-- A name that means itself in a path. -/
structure Plain (name : String) : Prop where
  noBackslash : '\\' ∉ name.toList
  noBreak : ∀ c ∈ name.toList, isBreak c = false
  noEscape : hasEscape name.toList = false
  noDot : name ≠ "." ∧ name ≠ ".."

/-- A request addresses no more than one name. -/
theorem Addresses.name_unique {broker : Url.BrokerUrl} {name other : String} {r : Request}
    (h : Addresses broker name r) (h' : Addresses broker other r) : name = other := by
  obtain ⟨segment, _, hname, hpath⟩ := h.path
  obtain ⟨segment', _, hother, hpath'⟩ := h'.path
  have hsegment : segment = segment' := List.append_cancel_left (hpath.symm.trans hpath')
  rw [hsegment, hother] at hname
  exact String.toList_inj.mp (Text.bytes_injective hname).symm

namespace Client

/-- The folder of the data sources of a broker. -/
def folderPath (c : Client) : List (List Char) :=
  c.url.path.rdropWhile (· = []) ++ ["datasources".toList]

/-- What is read of a name in a path: without breaks, and backslashes are slashes. -/
def readName (source : String) : List Char :=
  slashes ((Text.lastPiece '/' source).toList.filter (!isBreak ·))

/-- The segments that a name becomes in a path before its dots are resolved. -/
def segmentsOf (source : String) : List (List Char) :=
  (pieces '/' (readName source)).map (percentEncode inPathSet)

/-! ## Names -/

/-- A plain name is what its segment decodes to. -/
theorem percentDecode_of_plain {name : String} (h : Plain name) :
    percentDecode (percentEncode inPathSet name.toList) = bytes name.toList := by
  rw [Url.percentDecode_percentEncode, Url.percentDecode_eq_bytes h.noEscape]

/-- A plain name is no dot when it is encoded: it is decoded to itself, and a dot to a dot. -/
theorem not_isDot_of_plain {name : String} (h : Plain name) :
    isDot (percentEncode inPathSet name.toList) = false := by
  have hdecode := percentDecode_of_plain h
  refine Bool.eq_false_iff.mpr fun hdot => ?_
  rcases Bool.or_eq_true_iff.mp hdot with hdouble | hsingle
  · rw [Url.percentDecode_of_isDoubleDot hdouble] at hdecode
    exact h.noDot.2 (String.toList_inj.mp (Text.bytes_injective hdecode)).symm
  · rw [Url.percentDecode_of_isSingleDot hsingle] at hdecode
    exact h.noDot.1 (String.toList_inj.mp (Text.bytes_injective hdecode)).symm

/-- A plain name is read as it is and becomes one segment. -/
theorem segmentsOf_of_plain {name : String} (hname : '/' ∉ name.toList) (h : Plain name) :
    segmentsOf name = [percentEncode inPathSet name.toList] := by
  have hread : readName name = name.toList := by
    rw [readName, Text.lastPiece_of_not_mem hname, List.filter_eq_self.mpr,
      Url.slashes_of_not_mem h.noBackslash]
    intro c hc
    rw [h.noBreak c hc]
    rfl
  rw [segmentsOf, hread, Text.pieces_of_not_mem hname, List.map_singleton]

/-- A name has no more bytes after it was read again. -/
theorem length_bytes_readName_le {name : String} (hname : '/' ∉ name.toList) :
    (bytes (readName name)).length ≤ (bytes name.toList).length := by
  rw [readName, Url.length_bytes_slashes, Text.lastPiece_of_not_mem hname]
  exact (Text.bytes_sublist List.filter_sublist).length_le

/-- No byte is added by reading a name, and each byte is needed: if as many are there when it is
decoded, then nothing in it was dropped, replaced or decoded. -/
theorem plain_of_length_le {name : String} (hname : '/' ∉ name.toList)
    (hslash : '/' ∉ readName name)
    (h : (bytes name.toList).length ≤ (percentDecode (readName name)).length) :
    '\\' ∉ name.toList ∧ (∀ c ∈ name.toList, isBreak c = false) ∧
      hasEscape name.toList = false := by
  have hdecode := Url.length_percentDecode_le (readName name)
  have hread : readName name = slashes (name.toList.filter (!isBreak ·)) := by
    rw [readName, Text.lastPiece_of_not_mem hname]
  have hlength : (bytes (readName name)).length =
      (bytes (name.toList.filter (!isBreak ·))).length := by
    rw [hread, Url.length_bytes_slashes]
  have hbreaks : name.toList.filter (!isBreak ·) = name.toList :=
    Text.bytes_injective ((Text.bytes_sublist List.filter_sublist).eq_of_length_le (by omega))
  rw [hbreaks] at hread hlength
  rw [hread] at hslash
  have hbackslash := Url.not_mem_of_slashes hslash
  rw [hread, Url.slashes_of_not_mem hbackslash] at h
  refine ⟨hbackslash, fun c hc => ?_, Bool.eq_false_iff.mpr fun hescape => ?_⟩
  · exact (Bool.not_eq_eq_eq_not).mp (List.filter_eq_self.mp hbreaks c hc)
  · exact Nat.lt_irrefl _ (Nat.lt_of_lt_of_le (Url.length_percentDecode_lt hescape) h)

/-! ## The path of a request -/

theorem settled_folderName : Settled "datasources".toList where
  plain := by
    have hall :
        ("datasources".toList.all fun c => !inPathSet c && c != '/' && c != '\\') = true := by decide
    intro c hc
    have hplain := List.all_eq_true.mp hall c hc
    simpa [and_assoc] using hplain
  noDot := by decide

/-- The path of a client's URL was read, so it is settled. -/
theorem settled_path {text : String} {timeoutSecs : Nat} {c : Client}
    (h : ofUrl text timeoutSecs = .ok c) : ∀ s ∈ c.url.path, Settled s := by
  obtain ⟨url, hread, hc⟩ := Fallible.of_map_eq_ok h
  obtain ⟨cs, hpath⟩ := Url.exists_readPath (Fallible.of_mapError_eq_ok hread)
  intro s hs
  rw [← hc, hpath] at hs
  exact Url.settled_of_mem_readPath hs

section

variable {c : Client} (hpath : ∀ s ∈ c.url.path, Settled s)
include hpath

/-- The folder of the data sources is as settled as the path it is appended to. -/
theorem settled_folderPath : ∀ s ∈ c.folderPath, Settled s := by
  intro s hs
  rcases List.mem_append.mp hs with hs | hs
  · exact hpath s ((List.rdropWhile_prefix _ _).subset hs)
  · rw [List.mem_singleton.mp hs]
    exact settled_folderName

/-- The folder is written behind the path of the URL, whose slashes at the end do not count. -/
theorem pathChars_folderPath :
    pathChars c.folderPath = c.url.pathText.rdropWhile (· = '/') ++ "/datasources".toList := by
  rw [folderPath, Url.BrokerUrl.pathText,
    Url.rdropWhile_pathChars fun s hs => (hpath s hs).noSlash, pathChars, List.flatMap_append]
  rfl

/-- The path of a segment in the folder of the data sources. -/
theorem pathChars_folderPath_append (segment : List Char) :
    pathChars (c.folderPath ++ [segment]) =
      c.url.pathText.rdropWhile (· = '/') ++ "/datasources/".toList ++ segment := by
  have hfolder : "/datasources/".toList = "/datasources".toList ++ ['/'] := rfl
  rw [pathChars, List.flatMap_append, ← pathChars, pathChars_folderPath hpath, hfolder,
    List.flatMap_singleton, List.append_assoc, List.append_assoc, List.append_assoc]
  rfl

/-- What is read of the name is resolved in the folder of the data sources. -/
theorem path_fetching (source : String) :
    (c.fetching source).url.path = resolveDots c.folderPath.reverse (segmentsOf source) := by
  have hfolder := settled_folderPath hpath
  have hkept : (pathChars c.folderPath).filter (!isBreak ·) = pathChars c.folderPath := by
    refine List.filter_eq_self.mpr fun c hc => ?_
    rw [Url.isBreak_of_plain (Url.plain_of_mem_pathChars hfolder hc).1]
    rfl
  show readPath ((c.folder (some _)).filter (!isBreak ·)) = _
  have htext (name : String) :
      c.folder (some name) = pathChars c.folderPath ++ '/' :: name.toList := by
    rw [pathChars_folderPath hpath]
    rfl
  rw [htext, List.filter_append, hkept, List.filter_cons_of_pos (by decide),
    Url.readPath_pathChars hfolder]
  rfl

/-! ## Addressing -/

/-- A plain name is addressed: it is encoded as a segment of its own. -/
theorem addresses_of_plain {name : String} (hname : '/' ∉ name.toList) (h : Plain name) :
    Addresses c.url name (c.fetching name) := by
  have hslash : '/' ∉ percentEncode inPathSet name.toList := by
    intro hmem
    rcases (Url.mem_percentEncode hmem).2 with hmem | hne
    · exact hname hmem
    · exact hne.1 rfl
  have hnodot : ∀ s ∈ [percentEncode inPathSet name.toList], isDot s = false :=
    List.forall_mem_singleton.mpr (not_isDot_of_plain h)
  have hsegments : (c.fetching name).url.path =
      c.folderPath ++ [percentEncode inPathSet name.toList] := by
    rw [path_fetching hpath, segmentsOf_of_plain hname h, Url.resolveDots_of_not_isDot hnodot,
      List.reverse_reverse]
  refine ⟨rfl, rfl, rfl, rfl, rfl, _, hslash, percentDecode_of_plain h, ?_⟩
  rw [Url.BrokerUrl.pathText, hsegments, pathChars_folderPath_append hpath]

/-- What an addressed name is read as is the one segment that is decoded to it. -/
theorem path_of_addresses {name : String} (h : Addresses c.url name (c.fetching name)) :
    ∃ segment, (c.fetching name).url.path = c.folderPath ++ [segment] ∧
      percentDecode segment = bytes name.toList := by
  obtain ⟨segment, hslash, hdecode, htext⟩ := h.path
  refine ⟨segment, ?_, hdecode⟩
  rw [← pathChars_folderPath_append hpath] at htext
  have hchars : pathChars (c.fetching name).url.path = pathChars (c.folderPath ++ [segment]) :=
    htext
  refine Url.pathChars_injective (fun s hs => ?_) (fun s hs => ?_) hchars
  · exact (Url.settled_of_mem_readPath hs).noSlash
  · rcases List.mem_append.mp hs with hs | hs
    · exact (settled_folderPath hpath s hs).noSlash
    · rw [List.mem_singleton.mp hs]; exact hslash

/-- A name that is addressed has no dots to resolve: they would make the path too short. -/
theorem not_isDot_of_addresses {name : String} (hname : '/' ∉ name.toList)
    (h : Addresses c.url name (c.fetching name)) : ∀ s ∈ segmentsOf name, isDot s = false := by
  obtain ⟨segment, hsegment, hdecode⟩ := path_of_addresses hpath h
  rw [path_fetching hpath] at hsegment
  have hlength : extent (c.folderPath ++ [segment]) =
      extent c.folderPath + ((bytes name.toList).length + 1) := by
    rw [Url.extent_append, Url.extent_cons, Url.extent_nil, hdecode]
  have hsegments : extent (segmentsOf name) ≤ (bytes name.toList).length + 1 :=
    (Url.extent_pieces_le (readName name)).trans
      (Nat.add_le_add_right (length_bytes_readName_le hname) 1)
  have hkept : extent c.folderPath.reverse + extent (segmentsOf name) ≤
      extent (resolveDots c.folderPath.reverse (segmentsOf name)) := by
    rw [hsegment, hlength, Url.extent_reverse]
    exact Nat.add_le_add_left hsegments _
  exact Url.not_isDot_of_extent_le hkept

/-- A name that is addressed is plain. -/
theorem plain_of_addresses {name : String} (hname : '/' ∉ name.toList)
    (h : Addresses c.url name (c.fetching name)) : Plain name := by
  have hnodot := not_isDot_of_addresses hpath hname h
  obtain ⟨segment, hsegment, hdecode⟩ := path_of_addresses hpath h
  rw [path_fetching hpath, Url.resolveDots_of_not_isDot hnodot, List.reverse_reverse] at hsegment
  obtain ⟨p, hp, hencode⟩ := List.map_eq_singleton_iff.mp (List.append_cancel_left hsegment)
  obtain ⟨hwhole, hslash⟩ := Text.eq_of_pieces_eq_singleton hp
  rw [← hencode, Url.percentDecode_percentEncode, ← hwhole] at hdecode
  obtain ⟨hbackslash, hbreak, hescape⟩ := plain_of_length_le hname hslash (by rw [hdecode])
  refine ⟨hbackslash, hbreak, hescape, ?_, ?_⟩
  · rintro rfl
    exact absurd (hnodot ['.'] (by decide)) (by decide)
  · rintro rfl
    exact absurd (hnodot ['.', '.'] (by decide)) (by decide)

end

/-- **A name is addressed iff it is plain.**  For every broker and every name without a slash, the
metadata are asked for with one request, by the client and by a new handle, and it goes to the
broker without a query.  It addresses the name exactly if the name is plain; so it tells plain names
from each other. -/
theorem addresses_iff_plain {text : String} {timeoutSecs : Nat} {c : Client}
    (hc : ofUrl text timeoutSecs = .ok c) {name : String} (hname : '/' ∉ name.toList) :
    (∀ outcomes, ((c.metadata name).run outcomes).requests = [c.fetching name] ∧
      ((Handle.ofSource name c).metadata.run outcomes).requests = [c.fetching name]) ∧
    (c.fetching name).method = .get ∧
    (c.fetching name).url =
      { c.url with path := (c.fetching name).url.path, query := none } ∧
    (Addresses c.url name (c.fetching name) ↔ Plain name) ∧
    ∀ other, '/' ∉ other.toList → Plain name → Plain other →
      c.fetching name = c.fetching other → name = other := by
  have hpath := settled_path hc
  refine ⟨fun outcomes => ⟨rfl, ?_⟩, rfl, rfl,
    ⟨plain_of_addresses hpath hname, addresses_of_plain hpath hname⟩, ?_⟩
  · have hsource : (Handle.ofSource name c).name = name := Text.lastPiece_of_not_mem hname
    rw [Handle.run_metadata_of_unknown rfl, hsource]
    rfl
  · intro other hother hplain hplain' hsame
    have haddresses := addresses_of_plain hpath hname hplain
    rw [hsame] at haddresses
    exact haddresses.name_unique (addresses_of_plain hpath hother hplain')

/-- The client of a broker on this computer, with a path of its own. -/
def druidClient : Client where
  url := ⟨false, [], [], .domain "localhost".toList, some 8082,
    ["druid".toList, "v2".toList, []], none, none⟩
  timeoutSecs := 120

/-- A name with characters that are encoded is addressed. -/
theorem druidClient_addresses :
    ofUrl "http://localhost:8082/druid/v2/" 120 = .ok druidClient ∧
    Addresses druidClient.url "100% of é?" (druidClient.fetching "100% of é?") ∧
    (druidClient.fetching "100% of é?").target = "/druid/v2/datasources/100%%20of%20%C3%A9%3F" := by
  have hclient : ofUrl "http://localhost:8082/druid/v2/" 120 = .ok druidClient := by
    decide +kernel
  have hplain : Plain "100% of é?" := ⟨by decide, by simp [isBreak], by decide, by decide⟩
  have hname : '/' ∉ "100% of é?".toList := by decide
  obtain ⟨_, _, _, haddresses, _⟩ := addresses_iff_plain hclient hname
  exact ⟨hclient, haddresses.mpr hplain, by decide +kernel⟩

/-- Names that are not plain: one is taken for a folder and a name in it, one for a name that is
written differently, and one leaves the folder of the data sources. -/
theorem druidClient_confused :
    ofUrl "http://localhost:8082/druid/v2/" 120 = .ok druidClient ∧
    ¬ Addresses druidClient.url "shop\\orders" (druidClient.fetching "shop\\orders") ∧
    druidClient.fetching "or\tders" = druidClient.fetching "orders" ∧
    (druidClient.fetching "..").target = "/druid/v2/" := by
  have hclient : ofUrl "http://localhost:8082/druid/v2/" 120 = .ok druidClient := by
    decide +kernel
  have hurl : (druidClient.fetching "or\tders").url = (druidClient.fetching "orders").url := by
    decide +kernel
  refine ⟨hclient, fun h => ?_, congrArg (Request.mk .get · none 120) hurl, by decide +kernel⟩
  exact (plain_of_addresses (settled_path hclient) (by decide) h).noBackslash (by decide)

end Client
end BrokerQuery

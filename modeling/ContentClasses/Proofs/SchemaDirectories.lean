import ContentClasses.Proofs.FileListings
import ContentClasses.Proofs.SchemaDocuments

/-!
# Directories of a schema

What the content types and the snippets of a schema are in terms of the files that are found below
its directories. `directory_loads` says which files count, in which order, what each of them gives,
and when a file with a list gives what one file for each of its items would give in its place.
-/

namespace ContentClasses

open Files (Location Node Workspace InOrder)

/-- A text is decoded again from its own bytes. -/
lemma Text.fromUTF8?_toUTF8 (text : String) : String.fromUTF8? text.toUTF8 = some text :=
  dif_pos text.isValidUTF8

/-- A name has an extension exactly when there is something in front of its last dot. -/
lemma Path.extension?_eq_some_iff {name extension : String} :
    extension? name = some extension ↔
      '.' ∉ extension.toList ∧ ∃ stem, stem ≠ "" ∧ name = stem ++ "." ++ extension := by
  have whole := List.takeWhile_append_dropWhile (p := (· ≠ '.')) (l := name.toList.reverse)
  have behind : name.toList.reverse.drop (name.toList.reverse.takeWhile (· ≠ '.')).length =
      name.toList.reverse.dropWhile (· ≠ '.') := by
    conv => lhs; arg 2; rw [← whole]
    rw [List.drop_left]
  rw [extension?]
  simp only [behind]
  constructor
  · intro found
    split at found
    case h_2 => cases found
    case h_1 dot last rest front =>
      have ends := List.head?_dropWhile_not (· ≠ '.') name.toList.reverse
      rw [front] at whole ends
      obtain rfl : dot = '.' := by simpa using ends
      cases found
      refine ⟨fun inside => ?_, String.ofList (last :: rest).reverse, by simp, ?_⟩
      · rw [String.toList_ofList, List.mem_reverse] at inside
        simpa using List.mem_takeWhile_imp inside
      · have text := congrArg List.reverse whole
        rw [List.reverse_reverse] at text
        refine String.toList_inj.mp (text.symm.trans ?_)
        simp
  · rintro ⟨plain, stem, full, rfl⟩
    obtain ⟨c, cs, reversed⟩ : ∃ c cs, stem.toList.reverse = c :: cs :=
      List.exists_cons_of_ne_nil (by simpa using full)
    have back : (stem ++ "." ++ extension).toList.reverse =
        extension.toList.reverse ++ '.' :: c :: cs := by
      simp [reversed]
    have all : ∀ d ∈ extension.toList.reverse, decide (d ≠ '.') = true := by
      intro d mem
      refine decide_eq_true ?_
      rintro rfl
      exact plain (List.mem_reverse.mp mem)
    rw [back, List.takeWhile_append_of_pos all, List.dropWhile_append_of_pos all]
    simp

namespace Files.Node
variable {node inner : Node} {location : Location}

/-- What is found in a tree without repeated names is one. -/
lemma Proper.below (proper : node.Proper) (there : node.get? location = some inner) :
    inner.Proper := by
  intro rest entries found
  refine proper (location ++ rest) entries ?_
  rw [get?_append, there]
  exact found

end Files.Node

namespace SchemaSource
variable {α : Type} {read : Nat → Json → Except Json.Failure α} {w : Workspace}
  {directory root : Path} {location : Location} {content : ByteArray} {document : Json}
  {values : List α} {file : Location × ByteArray} {files before after : List (Location × ByteArray)}

/-- A document is a file whose last name ends in `.json` behind something. -/
lemma isDocument_iff :
    isDocument location ↔ ∃ folders stem, stem ≠ "" ∧ location = folders ++ [stem ++ ".json"] := by
  rw [isDocument, beq_iff_eq, Option.bind_eq_some_iff]
  constructor
  · rintro ⟨name, last, extension⟩
    obtain ⟨-, stem, full, rfl⟩ := Path.extension?_eq_some_iff.mp extension
    refine ⟨location.dropLast, stem, full, ?_⟩
    rw [String.append_assoc] at last
    exact (List.dropLast_append_getLast? _ last).symm
  · rintro ⟨folders, stem, full, rfl⟩
    refine ⟨_, List.getLast?_concat, Path.extension?_eq_some_iff.mpr ⟨by decide, stem, full, ?_⟩⟩
    rw [String.append_assoc]
    rfl

/-- A file below the directory whose name ends in `.json` behind something. -/
def DocumentAt (w : Workspace) (directory : Path) (location : Location)
    (content : ByteArray) : Prop :=
  (∃ folders stem, stem ≠ "" ∧ location = folders ++ [stem ++ ".json"]) ∧
    ∃ top, w.node? directory = some top ∧ top.get? location = some (.file content)

/-- All documents below the directory, each once, in the order of their locations. -/
structure DocumentFiles (w : Workspace) (directory : Path)
    (files : List (Location × ByteArray)) : Prop where
  inOrder : InOrder files
  mem (location : Location) (content : ByteArray) :
    (location, content) ∈ files ↔ DocumentAt w directory location content

/-- The documents below the directory, as they are found. -/
def documentFiles (w : Workspace) (directory : Path) : List (Location × ByteArray) :=
  match w.node? directory with
  | some (.dir entries) => (Node.dir entries).files.filter fun (location, _) => isDocument location
  | _ => []

/-- A directory is read document by document, with the values one after the other. -/
lemma ofDirectory_eq :
    ofDirectory read w directory =
      ((documentFiles w directory).mapM (ofFile read directory)).map List.flatten := by
  rw [ofDirectory, documentFiles]
  cases w.node? directory with
  | none => rfl
  | some node => cases node <;> rfl

/-- What a path finds in a tree without repeated names is a tree without them. -/
lemma proper_of_node? (proper : w.root.Proper) {top : Node}
    (there : w.node? directory = some top) : top.Proper := by
  rw [Workspace.node?] at there
  split at there
  case h_1 => exact proper.below there
  case h_2 => cases there

/-- The documents that are found are all below the directory, in order. -/
lemma documentFiles_spec (proper : w.root.Proper) :
    DocumentFiles w directory (documentFiles w directory) := by
  rw [documentFiles]
  split
  case h_1 entries there =>
    have own := proper_of_node? proper there
    refine ⟨(Node.files_inOrder own).filter _, fun location content => ?_⟩
    rw [List.mem_filter, Node.mem_files own, isDocument_iff]
    constructor
    · rintro ⟨found, document⟩
      exact ⟨document, _, there, found⟩
    · rintro ⟨document, top, same, found⟩
      cases there.symm.trans same
      exact ⟨found, document⟩
  case h_2 other =>
    refine ⟨.nil, fun location content => ⟨nofun, ?_⟩⟩
    rintro ⟨⟨folders, stem, -, rfl⟩, top, there, found⟩
    cases top with
    | dir entries => exact absurd there (other entries)
    | file _ =>
      -- A file has nothing below it.
      cases folders <;> cases found

/-- What is found below a directory are all of its documents. -/
lemma DocumentFiles.of_eq (proper : w.root.Proper) (found : documentFiles w directory = files) :
    DocumentFiles w directory files := by
  rw [← found]
  exact documentFiles_spec proper

/-- There is only one list of all documents in order. -/
lemma DocumentFiles.eq (proper : w.root.Proper) (all : DocumentFiles w directory files) :
    files = documentFiles w directory := by
  have own : DocumentFiles w directory (documentFiles w directory) := documentFiles_spec proper
  refine all.inOrder.ext own.inOrder fun ⟨location, content⟩ => ?_
  rw [all.mem, own.mem]

/-- The file holds a text, and the text is the document. -/
def Holds (content : ByteArray) (document : Json) : Prop :=
  ∃ text, String.fromUTF8? content = some text ∧ Json.ofText? text = some document

/-- The values that a row of files gives: one after the other those of the document in each. -/
def FilesGive (read : Nat → Json → Except Json.Failure α) (files : List (Location × ByteArray))
    (values : List α) : Prop :=
  ∃ rows, List.Forall₂ (fun file row => ∃ document, Holds file.2 document ∧ Gives read document row)
    files rows ∧ values = rows.flatten

section Files
variable {parts : List (Location × ByteArray)} {items : List Json}

lemma Holds.eq {other : Json} (first : Holds content document) (second : Holds content other) :
    document = other := by
  obtain ⟨text, decoded, parsed⟩ := first
  obtain ⟨same, decoded_again, parsed_again⟩ := second
  cases decoded.symm.trans decoded_again
  exact Option.some.inj (parsed.symm.trans parsed_again)

/-- What is said of the document that a file holds. -/
lemma Holds.exists_and_iff {P : Json → Prop} (holds : Holds content document) :
    (∃ other, Holds content other ∧ P other) ↔ P document := by
  refine ⟨fun ⟨other, there, said⟩ => ?_, fun said => ⟨document, holds, said⟩⟩
  rw [holds.eq there]
  exact said

/-- A file is read if it holds a document that gives something. -/
lemma ofFile_eq_ok (reads : ReadsDocuments read) :
    ofFile read directory file = .ok values ↔
      ∃ document, Holds file.2 document ∧ Gives read document values := by
  rw [ofFile]
  split
  case h_1 decoded => simp [Holds, decoded]
  case h_2 text decoded =>
    split
    case h_1 parsed => simp [Holds, decoded, parsed]
    case h_2 document parsed =>
      have holds : Holds file.2 document := ⟨text, decoded, parsed⟩
      have mapped : (ofDocument read document).mapError Error.document = .ok values ↔
          Gives read document values := by
        rw [← ofDocument_eq_ok reads]
        cases ofDocument read document <;> simp [Except.mapError]
      rw [mapped, holds.exists_and_iff]

/-- A row of files is read if each of them gives something. -/
lemma mapM_ofFile_eq_ok (reads : ReadsDocuments read) :
    (files.mapM (ofFile read directory)).map List.flatten = .ok values ↔
      FilesGive read files values := by
  have flat (rows : Except Error (List (List α))) :
      rows.map List.flatten = .ok values ↔ ∃ all, rows = .ok all ∧ values = all.flatten := by
    cases rows <;> simp [Except.map, eq_comm]
  rw [flat, FilesGive]
  refine exists_congr fun rows => and_congr_left' ?_
  rw [mapM_eq_ok]
  simp only [ofFile_eq_ok reads]

/-- Two rows of files give what they give one after the other. -/
lemma filesGive_append {others : List (Location × ByteArray)} :
    FilesGive read (files ++ others) values ↔
      ∃ front back, FilesGive read files front ∧ FilesGive read others back ∧
        values = front ++ back := by
  constructor
  · rintro ⟨rows, all, rfl⟩
    have one := List.forall₂_take files.length all
    have two := List.forall₂_drop files.length all
    rw [List.take_left] at one
    rw [List.drop_left] at two
    refine ⟨_, _, ⟨_, one, rfl⟩, ⟨_, two, rfl⟩, ?_⟩
    rw [← List.flatten_append, List.take_append_drop]
  · rintro ⟨_, _, ⟨first, one, rfl⟩, ⟨second, two, rfl⟩, rfl⟩
    exact ⟨first ++ second, List.rel_append one two, List.flatten_append.symm⟩

/-- A single file gives what its document gives. -/
lemma filesGive_of_holds (holds : Holds file.2 document) :
    FilesGive read [file] values ↔ Gives read document values := by
  constructor
  · rintro ⟨rows, all, rfl⟩
    cases all with
    | cons first none =>
      cases none
      rw [List.flatten_singleton]
      exact holds.exists_and_iff.mp first
  · intro gives
    exact ⟨[values], .cons ⟨document, holds, gives⟩ .nil, List.flatten_singleton.symm⟩

/-- Files with documents give what the documents give. -/
lemma filesGive_of_parts (holds : List.Forall₂ (fun part item => Holds part.2 item) parts items) :
    FilesGive read parts values ↔ RowGives read items values := by
  refine exists_congr fun rows => and_congr_left' ?_
  induction holds generalizing rows with
  | nil => rw [List.forall₂_nil_left_iff, List.forall₂_nil_left_iff]
  | cons own _ ih =>
    cases rows with
    | nil => simp only [List.forall₂_nil_right_iff, reduceCtorEq]
    | cons row rows => rw [List.forall₂_cons, List.forall₂_cons, own.exists_and_iff, ih]

/-- A row of files gives something if each of them does. -/
lemma exists_filesGive :
    (∃ values, FilesGive read files values) ↔
      ∀ file ∈ files, ∃ values document, Holds file.2 document ∧ Gives read document values := by
  constructor
  · rintro ⟨_, rows, all, -⟩
    exact exists_of_forall₂ all
  · intro each
    induction files with
    | nil => exact ⟨[], [], .nil, rfl⟩
    | cons file files ih =>
      rw [List.forall_mem_cons] at each
      obtain ⟨values, document, holds, gives⟩ := each.1
      obtain ⟨later, all⟩ := ih each.2
      refine ⟨values ++ later, ?_⟩
      rw [← List.singleton_append, filesGive_append]
      exact ⟨values, later, (filesGive_of_holds holds).mpr gives, all, rfl⟩

/-- When a file with a list gives what one file for each item of the list gives in its place,
whatever files stand before and after it. -/
structure ListsApart (read : Nat → Json → Except Json.Failure α) : Prop where
  apart {file : Location × ByteArray} {items : List Json} {parts : List (Location × ByteArray)} :
    Holds file.2 (.array items) → List.Forall₂ (fun part item => Holds part.2 item) parts items →
      ((∀ before after values, FilesGive read (before ++ file :: after) values ↔
        FilesGive read (before ++ parts ++ after) values) ↔ TakenApart read items)
  objects {items : List Json} : (∀ item ∈ items, ∃ members, item = .object members) →
    (Json.array items).isHeld Json.maxDepth → TakenApart read items

/-- When a list can be replaced follows from its items alone, since the files around it give what
they give. -/
lemma listsApart (reads : ReadsDocuments read) : ListsApart read where
  apart {file items parts} list holds := by
    rw [← gives_apart_iff reads]
    constructor
    · intro same values
      have alone := same [] [] values
      rw [List.nil_append, List.nil_append, List.append_nil, filesGive_of_holds list,
        filesGive_of_parts holds] at alone
      exact alone
    · intro same before after values
      have middle (values : List α) :
          FilesGive read [file] values ↔ FilesGive read parts values := by
        rw [filesGive_of_holds list, filesGive_of_parts holds, same]
      rw [List.append_cons]
      simp only [filesGive_append, middle]
  objects {items} objects held := by
    refine ⟨fun value done => ?_, fun ⟨values, rows, all, _⟩ => ⟨held, fun item mem => ?_⟩⟩
    · obtain ⟨_, eq⟩ | ⟨first, rest, eq, scalar⟩ := reads.shape done
      · cases eq
      · cases eq
        obtain ⟨members, rfl⟩ := objects first List.mem_cons_self
        simp at scalar
    · obtain ⟨members, rfl⟩ := objects item mem
      obtain ⟨row, gives⟩ := exists_of_forall₂ all _ mem
      cases gives with
      | single done => exact ⟨_, done⟩

end Files

/-- What is loaded from the documents below a directory. -/
structure Loads (read : Nat → Json → Except Json.Failure α) (w : Workspace) (directory : Path)
    (result : Except Error (List α)) : Prop where
  files : ∃ files, DocumentFiles w directory files
  loaded {files : List (Location × ByteArray)} : DocumentFiles w directory files →
    ∀ values, result = .ok values ↔ FilesGive read files values
  fails {files : List (Location × ByteArray)} : DocumentFiles w directory files →
    ((∃ failure, result = .error failure) ↔
      ∃ location content, DocumentAt w directory location content ∧
        ∀ document, Holds content document → ∀ values, ¬ Gives read document values)
  missing : w.node? directory = none → result = .ok []
  others {v : Workspace} : v.root.Proper →
    (∀ location content,
      DocumentAt v directory location content ↔ DocumentAt w directory location content) →
    ofDirectory read v directory = result

/-- A directory is loaded as its documents say, by any reader of documents. -/
lemma ofDirectory_loads (reads : ReadsDocuments read) (proper : w.root.Proper) :
    Loads read w directory (ofDirectory read w directory) where
  files := ⟨_, documentFiles_spec proper⟩
  loaded {files} all values := by
    rw [ofDirectory_eq, ← all.eq proper]
    exact mapM_ofFile_eq_ok reads
  fails {files} all := by
    have failed : (∃ failure, ofDirectory read w directory = .error failure) ↔
        ¬ ∃ values, FilesGive read files values := by
      have gives (values : List α) : FilesGive read files values ↔
          ofDirectory read w directory = .ok values := by
        rw [ofDirectory_eq, ← all.eq proper]
        exact (mapM_ofFile_eq_ok reads).symm
      simp only [gives]
      cases ofDirectory read w directory <;> simp
    rw [failed, exists_filesGive]
    simp only [← all.mem]
    push Not
    constructor
    · rintro ⟨⟨location, content⟩, mem, none⟩
      exact ⟨location, content, mem, fun document holds values => none values document holds⟩
    · rintro ⟨location, content, mem, none⟩
      exact ⟨(location, content), mem, fun values document holds => none document holds values⟩
  missing absent := by
    rw [ofDirectory, absent]
  others {v} other same := by
    have all : DocumentFiles v directory (documentFiles v directory) := documentFiles_spec other
    have own : DocumentFiles w directory (documentFiles v directory) :=
      ⟨all.inOrder, fun location content => (all.mem location content).trans (same _ _)⟩
    rw [ofDirectory_eq, ofDirectory_eq, own.eq proper]

/-- The content types and the snippets of a schema are what the documents below its two directories
give, one after the other in the order of the files; no other file counts, and each document has to
give something. A list gives what its items give as documents in its place exactly when it can be
taken apart, as a list of objects can that can be held. -/
theorem directory_loads (proper : w.root.Proper) (root : Path) :
    (w.isDir root = false → ∃ failure, contentTypes (.directory root) w = .error failure) ∧
      (w.isDir root = true →
        Loads ContentType.ofJson w (root.join typesName) (contentTypes (.directory root) w)) ∧
      Loads Snippet.ofJson w (root.join snippetsName) (snippets (.directory root) w) ∧
      ListsApart ContentType.ofJson ∧ ListsApart Snippet.ofJson := by
  refine ⟨fun missing => ?_, fun there => ?_, ?_, ?_, ?_⟩
  · rw [contentTypes, missing]
    exact ⟨_, rfl⟩
  · rw [contentTypes, if_pos there]
    exact ofDirectory_loads ContentType.readsDocuments proper
  · exact ofDirectory_loads Snippet.readsDocuments proper
  · exact listsApart ContentType.readsDocuments
  · exact listsApart Snippet.readsDocuments

section Shop

/-- A text in a file holds what is read from it. -/
lemma holds_text {text : String} (parsed : Json.ofText? text = some document) :
    Holds text.toUTF8 document :=
  ⟨text, Text.fromUTF8?_toUTF8 text, parsed⟩

/-- A content type that stands alone in a file. -/
def pageType : ContentType := { id := "t1", codename := "page", name := "Page" }

/-- The first content type of the list. -/
def articleType : ContentType := { id := "t2", codename := "article", name := "Article" }

/-- The second content type of the list. -/
def newsType : ContentType := { id := "t3", codename := "news", name := "News" }

/-- The element of the shelf and of the snippet. -/
def titleElement : Element := { codename := "title", kind := .text }

/-- A content type with an element. -/
def shelfType : ContentType :=
  { id := "t4", codename := "shelf", name := "Shelf", elements := [titleElement] }

/-- The only snippet. -/
def seoSnippet : Snippet := { codename := "seo", elements := [titleElement] }

/-- A content type without its name, which is none. -/
def nameless : Json := .ofMembers [("id", .ofString "t3"), ("codename", .ofString "news")]

/-- The document of the page. -/
def pageText : String :=
  "\x7b\"id\":\"t1\",\"codename\":\"page\",\"name\":\"Page\",\"elements\":[]\x7d"

/-- The document of the first article. -/
def articleText : String :=
  "\x7b\"id\":\"t2\",\"codename\":\"article\",\"name\":\"Article\",\"elements\":[]\x7d"

/-- The document of the second article. -/
def newsText : String :=
  "\x7b\"id\":\"t3\",\"codename\":\"news\",\"name\":\"News\",\"elements\":[]\x7d"

/-- The document of what is no content type. -/
def namelessText : String :=
  "\x7b\"id\":\"t3\",\"codename\":\"news\"\x7d"

/-- The document of the shelf. -/
def shelfText : String :=
  "\x7b\"id\":\"t4\",\"codename\":\"shelf\",\"name\":\"Shelf\",\"elements\":" ++
    "[\x7b\"codename\":\"title\",\"type\":\"text\"\x7d]\x7d"

/-- The document of the snippet. -/
def seoText : String :=
  "\x7b\"codename\":\"seo\",\"elements\":[\x7b\"codename\":\"title\",\"type\":\"text\"\x7d]\x7d"

/-- Both articles in one list. -/
def listed : List (String × String) :=
  [("guides.json", "[" ++ articleText ++ "," ++ newsText ++ "]")]

/-- Each article in a file of its own, in the place of the list. -/
def apart : List (String × String) :=
  [("guides.1.json", articleText), ("guides.2.json", newsText)]

/-- A list whose second article has no name. -/
def faulty : List (String × String) :=
  [("guides.json", "[" ++ articleText ++ "," ++ namelessText ++ "]")]

/-- A folder with a content type and a note. -/
def guides : Node :=
  .dir [("readme.txt", .file "".toUTF8), ("page.json", .file pageText.toUTF8)]

/-- The entries for content types in no order: a file with a content type, those with articles, one
with nothing in front of its dot, and a folder. -/
def typeEntries (articles : List (String × String)) : List (String × Node) :=
  ("shelf.json", .file shelfText.toUTF8) ::
    articles.map (fun (name, text) => (name, .file text.toUTF8)) ++
      [(".json", .file "".toUTF8), ("guides", guides)]

/-- A schema with these content types and with a snippet in a folder. -/
def shopSchema (articles : List (String × String)) : Workspace where
  root := .dir [("schema", .dir
    [("types", .dir (typeEntries articles)),
      ("snippets", .dir [("meta", .dir [("seo.json", .file seoText.toUTF8)])])])]
  current := []

/-- The documents with content types. The folder comes first, since its name is the front of the
others. Were the whole paths compared, the dot would stand before the separator. -/
def typeFiles (articles : List (String × String)) : List (Location × ByteArray) :=
  [(["guides", "page.json"], pageText.toUTF8)] ++
    articles.map (fun (name, text) => ([name], text.toUTF8)) ++
      [(["shelf.json"], shelfText.toUTF8)]

/-- The schema has no two entries of one name where the files with articles have names of their
own. -/
lemma shopSchema_proper {articles : List (String × String)}
    (names : ((typeEntries articles).map Prod.fst).Nodup) :
    (shopSchema articles).root.Proper := by
  have folder : guides.Proper := Node.proper_dir (by decide) (by simp [Node.proper_file])
  have types : (Node.dir (typeEntries articles)).Proper := by
    refine Node.proper_dir names fun entry mem => ?_
    obtain mem | mem := List.mem_append.mp mem
    · obtain rfl | mem := List.mem_cons.mp mem
      · exact Node.proper_file
      · obtain ⟨article, -, rfl⟩ := List.mem_map.mp mem
        exact Node.proper_file
    · obtain rfl | rfl : entry = _ ∨ entry = _ := by simpa using mem
      · exact Node.proper_file
      · exact folder
  have inner : (Node.dir [("seo.json", .file seoText.toUTF8)]).Proper :=
    Node.proper_dir (List.nodup_singleton _) (by simp [Node.proper_file])
  have snippets : (Node.dir [("meta", .dir [("seo.json", .file seoText.toUTF8)])]).Proper :=
    Node.proper_dir (List.nodup_singleton _) (by simpa using inner)
  refine Node.proper_dir (List.nodup_singleton _) ?_
  rw [List.forall_mem_singleton]
  exact Node.proper_dir (by simp) (by simpa using ⟨types, snippets⟩)

/-- The documents with content types in the order in which they are read. -/
lemma documentFiles_types {articles : List (String × String)}
    (known : articles = listed ∨ articles = apart) :
    documentFiles (shopSchema articles) ⟨"schema/types"⟩ = typeFiles articles := by
  have there : (shopSchema articles).node? ⟨"schema/types"⟩ =
    some (.dir (typeEntries articles)) := rfl
  rw [documentFiles, there]
  obtain rfl | rfl := known <;>
    simp [typeEntries, guides, listed, apart, typeFiles, Node.files, Node.entryFiles,
      List.mergeSort, List.MergeSort.Internal.splitInTwo, isDocument, Path.extension?,
      documentExtension]

/-- The only document with snippets. -/
lemma documentFiles_snippets :
    documentFiles (shopSchema listed) ⟨"schema/snippets"⟩ =
      [(["meta", "seo.json"], seoText.toUTF8)] := by
  have there : (shopSchema listed).node? ⟨"schema/snippets"⟩ =
    some (.dir [("meta", .dir [("seo.json", .file seoText.toUTF8)])]) := rfl
  rw [documentFiles, there]
  simp [Node.files, Node.entryFiles, isDocument, Path.extension?, documentExtension]

/-- The page is what its document holds. -/
lemma holds_page : Holds pageText.toUTF8 pageType.toJson :=
  holds_text rfl

/-- The first article is what its document holds. -/
lemma holds_article : Holds articleText.toUTF8 articleType.toJson :=
  holds_text rfl

/-- The second article is what its document holds. -/
lemma holds_news : Holds newsText.toUTF8 newsType.toJson :=
  holds_text rfl

/-- The shelf with its element is what its document holds. -/
lemma holds_shelf : Holds shelfText.toUTF8 shelfType.toJson :=
  holds_text rfl

/-- The snippet is what its document holds. -/
lemma holds_seo : Holds seoText.toUTF8 seoSnippet.toJson :=
  holds_text rfl

set_option maxRecDepth 2000 in
/-- The list of both articles is read as an array of what they are read as. -/
lemma holds_listed :
    Holds ("[" ++ articleText ++ "," ++ newsText ++ "]").toUTF8
      (.array [articleType.toJson, newsType.toJson]) :=
  holds_text rfl

set_option maxRecDepth 2000 in
/-- The list with the fault is read as an array all the same. -/
lemma holds_faulty :
    Holds ("[" ++ articleText ++ "," ++ namelessText ++ "]").toUTF8
      (.array [articleType.toJson, nameless]) :=
  holds_text rfl

/-- The documents give the content types in the order of the files, those of the list in its
order. -/
lemma filesGive_listed :
    FilesGive ContentType.ofJson (typeFiles listed)
      [pageType, articleType, newsType, shelfType] := by
  refine ⟨[[pageType], [articleType, newsType], [shelfType]], ?_, rfl⟩
  refine .cons ⟨_, holds_page, .single ?_⟩ (.cons ⟨_, holds_listed, .list rfl ?_⟩
    (.cons ⟨_, holds_shelf, .single ?_⟩ .nil))
  · decide +kernel
  · exact .cons (by decide +kernel) (.cons (by decide +kernel) .nil)
  · decide +kernel

/-- The content types and the snippets of a schema in folders: with the articles in a list, with the
articles in files of their own, which give the same, and with a list that has a fault. -/
theorem shop_schema_loads :
    (shopSchema listed).root.Proper ∧ (shopSchema listed).isDir ⟨"schema"⟩ = true ∧
      DocumentFiles (shopSchema listed) ⟨"schema/types"⟩ (typeFiles listed) ∧
      contentTypes (.directory ⟨"schema"⟩) (shopSchema listed) =
        .ok [pageType, articleType, newsType, shelfType] ∧
      contentTypes (.directory ⟨"schema"⟩) (shopSchema apart) =
        .ok [pageType, articleType, newsType, shelfType] ∧
      snippets (.directory ⟨"schema"⟩) (shopSchema listed) = .ok [seoSnippet] ∧
      ∃ failure, contentTypes (.directory ⟨"schema"⟩) (shopSchema faulty) = .error failure := by
  have proper : (shopSchema listed).root.Proper := shopSchema_proper (by decide)
  have proper_apart : (shopSchema apart).root.Proper := shopSchema_proper (by decide)
  have proper_faulty : (shopSchema faulty).root.Proper := shopSchema_proper (by decide)
  have there : (shopSchema listed).isDir ⟨"schema"⟩ = true := by decide
  obtain ⟨-, types, snippets, lists, -⟩ := directory_loads proper ⟨"schema"⟩
  obtain ⟨-, types_apart, -⟩ := directory_loads proper_apart ⟨"schema"⟩
  obtain ⟨-, types_faulty, -⟩ := directory_loads proper_faulty ⟨"schema"⟩
  have files : DocumentFiles (shopSchema listed) ⟨"schema/types"⟩ (typeFiles listed) :=
    .of_eq proper (documentFiles_types (.inl rfl))
  have files_apart : DocumentFiles (shopSchema apart) ⟨"schema/types"⟩ (typeFiles apart) :=
    .of_eq proper_apart (documentFiles_types (.inr rfl))
  have snippet_files : DocumentFiles (shopSchema listed) ⟨"schema/snippets"⟩
      [(["meta", "seo.json"], seoText.toUTF8)] :=
    .of_eq proper documentFiles_snippets
  -- The list of objects can be taken apart, so its articles give the same in files of their own.
  have given_apart : FilesGive ContentType.ofJson (typeFiles apart)
      [pageType, articleType, newsType, shelfType] := by
    have taken : TakenApart ContentType.ofJson [articleType.toJson, newsType.toJson] :=
      lists.objects (by simp [ContentType.toJson, Json.ofMembers]) rfl
    have list : Holds (["guides.json"], ("[" ++ articleText ++ "," ++ newsText ++ "]").toUTF8).2
      (.array [articleType.toJson, newsType.toJson]) := holds_listed
    have parts : List.Forall₂ (fun part item => Holds part.2 item)
      [(["guides.1.json"], articleText.toUTF8), (["guides.2.json"], newsText.toUTF8)]
      [articleType.toJson, newsType.toJson] := .cons holds_article (.cons holds_news .nil)
    have same := (lists.apart list parts).mpr taken
    exact (same [_] [_] _).mp filesGive_listed
  refine ⟨proper, there, files, ((types there).loaded files _).mpr filesGive_listed,
    ((types_apart rfl).loaded files_apart _).mpr given_apart, ?_, ?_⟩
  · refine (snippets.loaded snippet_files _).mpr ((filesGive_of_holds holds_seo).mpr (.single ?_))
    decide +kernel
  · refine ((types_faulty rfl).fails (documentFiles_spec proper_faulty)).mpr
      ⟨["guides.json"], _, ⟨⟨[], "guides", by decide, rfl⟩, _, rfl, rfl⟩, ?_⟩
    intro document holds values gives
    rw [holds.eq holds_faulty, ← ofDocument_eq_ok ContentType.readsDocuments] at gives
    have failed : ofDocument ContentType.ofJson (.array [articleType.toJson, nameless]) =
      .error (.unexpected "a string") := by decide +kernel
    cases failed.symm.trans gives

end Shop

/-- A schema with one document of content types and none of snippets. -/
def schemaOf (text : String) : Workspace where
  root := .dir [("schema", .dir [("types", .dir [("page.json", .file text.toUTF8)])])]
  current := []

/-- A file with a text is read as the document of the text. -/
lemma ofFile_text (text : String) :
    ofFile read directory (location, text.toUTF8) =
      match Json.ofText? text with
      | none => .error (.document .malformed)
      | some document => (ofDocument read document).mapError .document := by
  cases read : Json.ofText? text <;> simp only [ofFile, Text.fromUTF8?_toUTF8, read]

/-- The schema has what its only document gives. -/
lemma contentTypes_schemaOf (text : String) :
    contentTypes (.directory ⟨"schema"⟩) (schemaOf text) =
      ofFile ContentType.ofJson ⟨"schema/types"⟩ (["page.json"], text.toUTF8) := by
  have own : documentFiles (schemaOf text) ⟨"schema/types"⟩ =
      [(["page.json"], text.toUTF8)] := by
    have there : (schemaOf text).node? ⟨"schema/types"⟩ =
      some (.dir [("page.json", .file text.toUTF8)]) := rfl
    have named : isDocument ["page.json"] = true := by decide
    rw [documentFiles, there]
    simp [Node.files, Node.entryFiles, named]
  have loaded : contentTypes (.directory ⟨"schema"⟩) (schemaOf text) =
      ofDirectory ContentType.ofJson (schemaOf text) ⟨"schema/types"⟩ := rfl
  rw [loaded, ofDirectory_eq, own]
  cases done : ofFile ContentType.ofJson ⟨"schema/types"⟩ (["page.json"], text.toUTF8) with
  | error failure => rw [mapM_cons_error done]; rfl
  | ok values => rw [mapM_cons_ok done]; simp [Except.map, pure, Except.pure]

/-- An object with the fields of a content type and a note, a number that no double can hold. -/
def notedPage : String :=
  "\x7b\"id\":\"t1\",\"codename\":\"page\",\"name\":\"Page\",\"note\":1e400\x7d"

/-- Alone the object is a content type. A list of this one object is not: it cannot be held, so it
is tried as the fields of a single one, and the first of those is a text. -/
theorem noted_page_lost_in_list :
    contentTypes (.directory ⟨"schema"⟩) (schemaOf notedPage) =
        .ok [{ id := "t1", codename := "page", name := "Page" }] ∧
      contentTypes (.directory ⟨"schema"⟩) (schemaOf ("[" ++ notedPage ++ "]")) =
        .error (.document (.unexpected "a string")) := by
  constructor
  · rw [contentTypes_schemaOf, ofFile_text]
    decide +kernel
  · rw [contentTypes_schemaOf, ofFile_text]
    decide +kernel

end SchemaSource

end ContentClasses

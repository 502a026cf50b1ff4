import BlockFs.Lib.Lines

namespace BlockFs

/-- A `std::string`. -/
abbrev Text := List Char

structure IniItem where
  key : Text
  value : Text
  comment : Text
  rightComment : Text
  deriving DecidableEq

structure IniSection where
  name : Text
  comment : Text
  rightComment : Text
  items : List IniItem
  deriving DecidableEq

/-- A parser with its sections in the order of `sections_vt`. -/
structure ConfigParser where
  sections : List IniSection
  configParserPath : Text
  commentDelimiter : Text
  errMsg : Text
  deriving DecidableEq

namespace ConfigParser

def RET_OK : Nat := 0
def ERR_UNMATCHED_BRACKETS : Nat := 2
def ERR_SECTION_EMPTY : Nat := 3
def ERR_SECTION_ALREADY_EXISTS : Nat := 4
def ERR_PARSE_KEY_VALUE_FAILED : Nat := 5
def ERR_OPEN_FILE_FAILED : Nat := 6
def ERR_NOT_FOUND_KEY : Nat := 8
def ERR_NOT_FOUND_SECTION : Nat := 9

/-- `ConfigParser::ConfigParser`. -/
def new : ConfigParser :=
  { sections := [], configParserPath := [], commentDelimiter := ['#'], errMsg := [] }

/-- `isspace` of the C locale. -/
def isspace (c : Char) : Bool :=
  c == ' ' || c == '\t' || c == '\n' || c == '\x0b' || c == '\x0c' || c == '\r'

/-- `ConfigParser::trim`. -/
def trim (str : Text) : Text := Lines.strip isspace str

/-- `std::string::find`: where `sep` first occurs. -/
def find (sep : Text) : Text → Option Nat
  | [] => if sep.isEmpty then some 0 else none
  | c :: str => if sep.isPrefixOf (c :: str) then some 0 else (find sep str).map (· + 1)

/-- `ConfigParser::split`: the two parts and whether there is a separator. Whatever its length, one
character is skipped. -/
def split (str sep : Text) : Text × Text × Bool :=
  match find sep str with
  | some pos => (trim (str.take pos), trim (str.drop (pos + 1)), true)
  | none => (trim str, [], false)

/-- `ConfigParser::StartWith`, which is `strncmp` over the length of the prefix. -/
def startWith (str pre : Text) : Bool :=
  (str.takeWhile (· != '\x00')).take pre.length == (pre.takeWhile (· != '\x00')).take pre.length

/-- `ConfigParser::IsCommentLine`. -/
def isCommentLine (p : ConfigParser) (str : Text) : Bool := startWith str p.commentDelimiter

/-- `ConfigParser::getSection`. -/
def getSection (p : ConfigParser) (section_ : Text) : Option IniSection :=
  p.sections.find? (·.name == section_)

/-- `ConfigParser::UpdateSection`: the index of the section it has added. -/
def updateSection (p : ConfigParser) (cleanLine comment rightComment : Text) :
    Except Nat (ConfigParser × Nat) :=
  match find [']'] cleanLine with
  | none => .error ERR_UNMATCHED_BRACKETS
  | some index =>
    if index ≤ 1 then .error ERR_SECTION_EMPTY
    else
      let s := trim ((cleanLine.drop 1).take (index - 1))
      if (p.getSection s).isSome then .error ERR_SECTION_ALREADY_EXISTS
      else
        let newSection : IniSection :=
          { name := s, comment := comment, rightComment := rightComment, items := [] }
        .ok ({ p with sections := p.sections ++ [newSection] }, p.sections.length)

/-- `ConfigParser::AddKeyValuePair`, with `parse` in it. -/
def addKeyValuePair (p : ConfigParser) (cleanLine comment rightComment : Text) (currSection : Nat) :
    Except Nat ConfigParser :=
  match split cleanLine ['='] with
  | (_, _, false) => .error ERR_PARSE_KEY_VALUE_FAILED
  | (key, value, true) =>
    let item : IniItem :=
      { key := key, value := value, comment := comment, rightComment := rightComment }
    .ok { p with sections := p.sections.modify currSection fun s => { s with items := s.items ++ [item] } }

/-- The loop of `ConfigParser::Load` over the lines of `std::getline`, left at the first line that is refused. -/
def loadLines (p : ConfigParser) (currSection : Nat) (comment : Text) : List Text → ConfigParser × Nat
  | [] => (p, RET_OK)
  | line :: lines =>
    let line := trim line
    if line.length = 0 then loadLines p currSection (comment ++ ['\n']) lines
    else if p.isCommentLine line then loadLines p currSection (comment ++ line ++ ['\n']) lines
    else
      let (cleanLine, rightComment, _) := split line p.commentDelimiter
      if cleanLine.head? = some '[' then
        match p.updateSection cleanLine comment rightComment with
        | .error err => (p, err)
        | .ok (p, currSection) => loadLines p currSection [] lines
      else
        match p.addKeyValuePair cleanLine comment rightComment currSection with
        | .error err => (p, err)
        | .ok p => loadLines p currSection [] lines

/-- `ConfigParser::Load` of a file that holds `file`, or of one that cannot be opened. What was loaded
before is released in either case. -/
def load (p : ConfigParser) (filePath : Text) (file : Option Text) : ConfigParser × Nat :=
  let p := { p with sections := [], configParserPath := filePath }
  match file with
  | none => (p, ERR_OPEN_FILE_FAILED)
  | some text =>
    loadLines { p with sections := [{ name := [], comment := [], rightComment := [], items := [] }] }
      0 [] (Lines.lines '\n' text)

/-- A newline, unless the data ends in one. -/
def endLine (data : Text) : Text := if data.getLast? = some '\n' then data else data ++ ['\n']

/-- One round of the inner loop of `SaveAs`. -/
def saveItem (p : ConfigParser) (data : Text) (item : IniItem) : Text :=
  let data := if item.comment ≠ [] then endLine (data ++ item.comment) else data
  let data := data ++ item.key ++ ['='] ++ item.value
  let data := if item.rightComment ≠ [] then data ++ [' '] ++ p.commentDelimiter ++ item.rightComment
    else data
  endLine data

/-- One round of the outer loop of `SaveAs`. No newline follows the comment beside a section. -/
def saveSection (p : ConfigParser) (data : Text) (sect : IniSection) : Text :=
  let data := if sect.comment ≠ [] then data ++ sect.comment else data
  let data := if sect.name ≠ [] then data ++ ['['] ++ sect.name ++ [']'] ++ ['\n'] else data
  let data := if sect.rightComment ≠ [] then data ++ [' '] ++ p.commentDelimiter ++ sect.rightComment
    else data
  sect.items.foldl p.saveItem data

/-- `ConfigParser::SaveAs`: what is written to the file. -/
def saveAs (p : ConfigParser) : Text := p.sections.foldl p.saveSection []

/-- The first element that meets a condition is changed. -/
def modifyFirst {α : Type} (cond : α → Bool) (f : α → α) : List α → List α
  | [] => []
  | a :: as => if cond a then f a :: as else a :: modifyFirst cond f as

/-- `ConfigParser::getValue`: the first item with the key, or the code of the failure. -/
def getValue (p : ConfigParser) (section_ key : Text) : Except Nat IniItem :=
  match p.getSection section_ with
  | none => .error ERR_NOT_FOUND_SECTION
  | some sect =>
    match sect.items.find? (·.key == key) with
    | none => .error ERR_NOT_FOUND_KEY
    | some item => .ok item

/-- `ConfigParser::GetStringValue` into a variable that holds `value`. -/
def getStringValue (p : ConfigParser) (section_ key value : Text) : Text × Nat :=
  match p.getValue section_ key with
  | .error err => (value, err)
  | .ok item => (item.value, RET_OK)

/-- `atoi`: optional white space, a sign, and digits up to the first other character. -/
def atoi (str : Text) : Int :=
  match str.dropWhile isspace with
  | '-' :: digits => -(Nat.ofDigitChars 10 (digits.takeWhile Char.isDigit) 0 : Int)
  | '+' :: digits => (Nat.ofDigitChars 10 (digits.takeWhile Char.isDigit) 0 : Int)
  | digits => (Nat.ofDigitChars 10 (digits.takeWhile Char.isDigit) 0 : Int)

/-- `ConfigParser::GetIntValue`, which converts an empty string when there is no value. -/
def getIntValue (p : ConfigParser) (section_ key : Text) : Int × Nat :=
  match p.getStringValue section_ key [] with
  | (strValue, err) => (atoi strValue, err)

/-- `ConfigParser::StringCmpIgnoreCase`. -/
def stringCmpIgnoreCase (str1 str2 : Text) : Bool := str1.map Char.toUpper == str2.map Char.toUpper

/-- `ConfigParser::GetBoolValue`; any other text leaves the variable as it is. -/
def getBoolValue (p : ConfigParser) (section_ key : Text) (value : Bool) : Bool × Nat :=
  match p.getStringValue section_ key [] with
  | (strValue, err) =>
    if stringCmpIgnoreCase strValue ['t', 'r', 'u', 'e'] || stringCmpIgnoreCase strValue ['1'] then
      (true, err)
    else if stringCmpIgnoreCase strValue ['f', 'a', 'l', 's', 'e'] ||
        stringCmpIgnoreCase strValue ['0'] then (false, err)
    else (value, err)

/-- `ConfigParser::GetValues`: every value of the key in the section. -/
def getValues (p : ConfigParser) (section_ key : Text) : List Text × Nat :=
  match p.getSection section_ with
  | none => ([], ERR_NOT_FOUND_SECTION)
  | some sect =>
    let values := (sect.items.filter (·.key == key)).map (·.value)
    if values.length = 0 then ([], ERR_NOT_FOUND_KEY) else (values, RET_OK)

/-- `ConfigParser::GetSections`. -/
def getSections (p : ConfigParser) : List Text := p.sections.map (·.name)

/-- `ConfigParser::HasSection`. -/
def hasSection (p : ConfigParser) (section_ : Text) : Bool := (p.getSection section_).isSome

/-- `ConfigParser::HasKey`. -/
def hasKey (p : ConfigParser) (section_ key : Text) : Bool :=
  match p.getSection section_ with
  | none => false
  | some sect => sect.items.any (·.key == key)

/-- The end of `setValue`, in the section it has found or made. -/
def setItem (key value comment : Text) (sect : IniSection) : IniSection :=
  if sect.items.any (·.key == key) then
    { sect with
      items := modifyFirst (·.key == key) (fun item => { item with value := value, comment := comment })
        sect.items }
  else
    { sect with
      items := sect.items ++ [{ key := key, value := value, comment := comment, rightComment := [] }] }

/-- `ConfigParser::setValue`. A missing section goes to the end, the nameless one to the front. -/
def setValue (p : ConfigParser) (section_ key value comment : Text) : ConfigParser :=
  let comt := if comment ≠ [] then p.commentDelimiter ++ comment else comment
  let sections :=
    if (p.getSection section_).isSome then p.sections
    else
      let sect : IniSection := { name := section_, comment := [], rightComment := [], items := [] }
      if section_ = [] then sect :: p.sections else p.sections ++ [sect]
  { p with sections := modifyFirst (·.name == section_) (setItem key value comt) sections }

/-- `ConfigParser::SetStringValue`. -/
def setStringValue (p : ConfigParser) (section_ key value : Text) : ConfigParser :=
  p.setValue section_ key value []

/-- What `snprintf` prints for `%d`. -/
def showInt (value : Int) : Text :=
  if value < 0 then '-' :: Nat.toDigits 10 value.natAbs else Nat.toDigits 10 value.natAbs

/-- `ConfigParser::SetIntValue`. -/
def setIntValue (p : ConfigParser) (section_ key : Text) (value : Int) : ConfigParser :=
  p.setValue section_ key (showInt value) []

/-- `ConfigParser::SetBoolValue`. -/
def setBoolValue (p : ConfigParser) (section_ key : Text) (value : Bool) : ConfigParser :=
  p.setValue section_ key (if value then ['t', 'r', 'u', 'e'] else ['f', 'a', 'l', 's', 'e']) []

/-- `ConfigParser::SetRightComment`; an empty key stands for the section. -/
def setRightComment (p : ConfigParser) (section_ key rightComment : Text) : ConfigParser × Nat :=
  match p.getSection section_ with
  | none => (p, ERR_NOT_FOUND_SECTION)
  | some sect =>
    if key = [] then
      ({ p with
          sections := modifyFirst (·.name == section_) (fun s => { s with rightComment := rightComment })
            p.sections }, RET_OK)
    else if sect.items.any (·.key == key) then
      ({ p with
          sections := modifyFirst (·.name == section_) (fun s =>
            { s with
              items := modifyFirst (·.key == key) (fun item => { item with rightComment := rightComment })
                s.items }) p.sections }, RET_OK)
    else (p, ERR_NOT_FOUND_KEY)

/-- `ConfigParser::DeleteSection`. -/
def deleteSection (p : ConfigParser) (section_ : Text) : ConfigParser :=
  { p with sections := p.sections.eraseP (·.name == section_) }

/-- `ConfigParser::DeleteKey`, which deletes the first item with the key. -/
def deleteKey (p : ConfigParser) (section_ key : Text) : ConfigParser :=
  { p with
    sections := modifyFirst (·.name == section_)
      (fun sect => { sect with items := sect.items.eraseP (·.key == key) }) p.sections }

end ConfigParser

/-- The fields of `bfs_config_info` that `ParseConfig` sets. -/
structure BfsConfigInfo where
  logLevel : Text
  logPath : Text
  deviceUuid : Text
  deriving DecidableEq

/-- `ConfigLoader::ParseConfig` over a file that holds `file`, or that cannot be opened. -/
def parseConfig (configPath : Text) (file : Option Text) (config : BfsConfigInfo) :
    BfsConfigInfo × Bool :=
  if configPath.isEmpty then (config, false)
  else
    match ConfigParser.new.load configPath file with
    | (ini, err) =>
      if err ≠ 0 then (config, false)
      else if !ini.hasSection "common".toList || !ini.hasSection "bfs".toList ||
          !ini.hasSection "fuse".toList then (config, false)
      else
        let (logLevel, err) := ini.getStringValue "common".toList "log_level".toList config.logLevel
        let config := { config with logLevel := if err ≠ 0 then "INFO".toList else logLevel }
        let (logPath, err) := ini.getStringValue "common".toList "log_path".toList config.logPath
        let config := { config with logPath := if err ≠ 0 then "/var/log/mfs/".toList else logPath }
        let (deviceUuid, err) := ini.getStringValue "bfs".toList "device_uuid".toList config.deviceUuid
        ({ config with deviceUuid := deviceUuid }, err == 0)

end BlockFs

import CardImport.Failure

/-!
# Help texts

The texts that explain the commands and their options, in English and Japanese. The environment
decides which one is shown.
-/

namespace CardImport

inductive Language where
  | ja | en
deriving DecidableEq, Repr

namespace Language

def name : Language → String
  | .ja => "ja"
  | .en => "en"

def nonempty? (value : Option String) : Option String := value.filter (· != "")

/-- The language of the environment; the first of the two variables that is not empty decides. -/
def ofEnvironment (lcAll lang : Option String) : Language :=
  let locale := (nonempty? lcAll <|> nonempty? lang).getD ""
  if ['j', 'a'].isPrefixOf (locale.toList.map Char.toLower) then .ja else .en

end Language

namespace Help

structure Message where
  key : String
  ja : String
  en : String

def Message.text (m : Message) : Language → String
  | .ja => m.ja
  | .en => m.en

def messages : List Message := [
  ⟨"cli.description",
    "clipingest - カードのクリップをテイクとして取り込むツール",
    "clipingest - import clips from a card as scene/take records"⟩,
  ⟨"cli.verbose",
    "詳細ログを表示",
    "Show debug logging"⟩,
  ⟨"import.description",
    "ソースディレクトリのクリップを取り込み、完了まで進捗を表示\n\nPATH を省略すると前回開いたパスを使用します。",
    "Import clips from a source directory and follow the job to completion\n\nPATH defaults to the last path opened."⟩,
  ⟨"import.subdir",
    "取り込み先のサブディレクトリ",
    "Destination subdirectory"⟩,
  ⟨"import.select",
    "セレクトとしてマークするクリップ名（複数指定可、先に取り込まれます）",
    "Mark clip as a select (repeatable; selects are imported first)"⟩,
  ⟨"import.scene",
    "全クリップに割り当てるシーン",
    "Scene to assign to every clip"⟩,
  ⟨"import.start_num",
    "最初のクリップのテイク番号（以降は連番）",
    "Take number of the first clip; later clips are numbered consecutively"⟩,
  ⟨"import.all",
    "取り込み済みのクリップも再度取り込む",
    "Also re-import clips that already have a take"⟩,
  ⟨"import.dry_run",
    "取り込みを開始せずに送信内容を表示",
    "Show the batch without starting the import"⟩,
  ⟨"import.json",
    "JSON 形式で出力",
    "Output in JSON format"⟩,
  ⟨"status.description",
    "取り込みジョブの状態を表示",
    "Show the state of the import job"⟩,
  ⟨"status.json",
    "JSON 形式で出力",
    "Output in JSON format"⟩,
  ⟨"takes.description",
    "記録済みテイクの一覧・編集・削除",
    "List, edit and delete recorded takes"⟩,
  ⟨"takes.list",
    "シーンごとにテイクを一覧表示",
    "List takes grouped by scene"⟩,
  ⟨"takes.show",
    "テイクの詳細を表示",
    "Show a single take"⟩,
  ⟨"takes.edit",
    "テイクを更新",
    "Update a take"⟩,
  ⟨"takes.delete",
    "テイクを削除",
    "Delete a take"⟩,
  ⟨"takes.json",
    "JSON 形式で出力",
    "Output in JSON format"⟩,
  ⟨"config.description",
    "設定を表示",
    "Show configuration"⟩,
  ⟨"config.json",
    "JSON 形式で出力",
    "Output in JSON format"⟩,
  ⟨"config.set",
    "設定値を変更（例: server.base_url, import.default_scene）",
    "Set a configuration value (e.g. server.base_url, import.default_scene)"⟩]

def keys : List String := (messages.map (·.key)).mergeSort (· ≤ ·)

def text (language : Language) (key : String) : Except Failure String :=
  match messages.find? (·.key == key) with
  | some m => .ok (m.text language)
  | none => .error (.missing key)

end Help

end CardImport

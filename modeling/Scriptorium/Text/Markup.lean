/-! Markup text: escaping of characters that would open a tag or an entity, and elements
written with their attributes, so that every start tag has its end tag. -/
namespace Scriptorium.Text

def escapeChar : Char → List Char
  | '&' => "&amp;".toList
  | '<' => "&lt;".toList
  | '>' => "&gt;".toList
  | c => [c]

def escape (text : String) : String := String.ofList (text.toList.flatMap escapeChar)

def attributes (pairs : List (String × String)) : String :=
  String.join (pairs.map fun (name, value) => " " ++ name ++ "=\"" ++ value ++ "\"")

def element (name : String) (pairs : List (String × String)) (content : String) : String :=
  "<" ++ name ++ attributes pairs ++ ">" ++ content ++ "</" ++ name ++ ">"

@[simp] theorem toList_attributes_nil : (attributes []).toList = [] := rfl

@[simp] theorem toList_attributes_cons (name value : String) (pairs : List (String × String)) :
    (attributes ((name, value) :: pairs)).toList =
      ' ' :: (name.toList ++ '=' :: '"' :: (value.toList ++ '"' :: (attributes pairs).toList)) := by
  simp [attributes]

@[simp] theorem toList_element (name : String) (pairs : List (String × String)) (content : String) :
    (element name pairs content).toList =
      '<' :: (name.toList ++ ((attributes pairs).toList ++
        '>' :: (content.toList ++ '<' :: '/' :: (name.toList ++ ['>'])))) := by
  simp [element]

end Scriptorium.Text

namespace NamelistCatalog.Yaml

/-- A node of a document. -/
inductive Node where
  | scalar (text : List Char) (isPlain : Bool)
  | sequence (items : List Node)
  | mapping (pairs : List (Node × Node))
deriving Inhabited

def Node.empty : Node := .scalar [] true

end NamelistCatalog.Yaml

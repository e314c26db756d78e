import Scaffold.Document.JsonText
import Scaffold.Keyed

/-!
# Example documents

Module documents that show how components, attributes, relations and indexes are written.
-/

namespace Scaffold.Setup

open Scaffold.Document (Value)

/-- A mapping with text keys. -/
def record (entries : List (String × Value)) : Value :=
  .mapping (entries.map fun (key, value) => (.text key, value))

/-- An entry for a list, left out when the list is empty. -/
def listed (name : String) (items : List Value) : List (String × Value) :=
  if items.isEmpty then [] else [(name, .list items)]

/-- An attribute with further entries. -/
def attributeRecord (name type : String) (more : List (String × Value)) : Value :=
  record ([("name", .text name), ("type", .text type)] ++ more)

/-- A relation to a model. -/
def relationRecord (name type model : String) : Value :=
  record [("name", .text name), ("type", .text type), ("model", .text model)]

/-- An index of columns with further entries. -/
def indexRecord (columns : List String) (more : List (String × Value)) : Value :=
  record (("columns", .list (columns.map .text)) :: more)

/-- A component with its records. -/
def componentRecord (name : String) (attributes relations indexes : List Value) : Value :=
  record ([("name", .text name), ("attributes", .list attributes)] ++
    listed "relations" relations ++ listed "indexes" indexes)

/-- A module with its components. -/
def moduleRecord (name : String) (components : List Value) : Value :=
  record [("module_name", .text name), ("components", .list components)]

/-- Deleting a row deletes those that refer to it. -/
def cascading : String × Value :=
  ("onDelete", .text "cascade")

/-- A module of one component. -/
def postExample : Value :=
  moduleRecord "Post" [
    componentRecord "Post" [
      attributeRecord "title" "string" [("length", .int 150)],
      attributeRecord "slug" "string" [("unique", .bool true)],
      attributeRecord "content" "text" [],
      attributeRecord "status" "enum"
        [("options", .list [.text "draft", .text "published"]), ("default", .text "draft")],
      attributeRecord "published_at" "timestamp" [("nullable", .bool true)],
      attributeRecord "author_id" "foreignId" [("on", .text "users"), cascading],
      attributeRecord "author" "relationship"
        [("relationship", record [("type", .text "belongsTo"), ("model", .text "User")])]] [] []]

/-- A module whose components refer to each other. -/
def blogExample : Value :=
  moduleRecord "Blog" [
    componentRecord "Category" [
      attributeRecord "name" "string" [("length", .int 100)],
      attributeRecord "slug" "string" [("unique", .bool true)]]
      [relationRecord "posts" "hasMany" "Post"] [],
    componentRecord "Post" [
      attributeRecord "title" "string" [],
      attributeRecord "body" "longText" [],
      attributeRecord "category_id" "foreignId" [("on", .text "categories"), cascading],
      attributeRecord "is_featured" "boolean" [("default", .bool false)]]
      [relationRecord "category" "belongsTo" "Category",
        relationRecord "comments" "hasMany" "Comment"]
      [indexRecord ["category_id", "is_featured"] []],
    componentRecord "Comment" [
      attributeRecord "body" "text" [],
      attributeRecord "post_id" "foreignId" [("on", .text "posts"), cascading]]
      [relationRecord "post" "belongsTo" "Post"] []]

/-- A module with numbers, choices and a unique index. -/
def shopExample : Value :=
  moduleRecord "Shop" [
    componentRecord "Product" [
      attributeRecord "name" "string" [],
      attributeRecord "sku" "string" [("length", .int 64), ("unique", .bool true)],
      attributeRecord "price" "decimal" [("total", .int 10), ("places", .int 2)],
      attributeRecord "stock" "integer" [("default", .int 0)],
      attributeRecord "is_active" "boolean" [("default", .bool true)],
      attributeRecord "options" "json" [("nullable", .bool true)]] [] [],
    componentRecord "Order" [
      attributeRecord "number" "string" [("unique", .bool true)],
      attributeRecord "status" "enum"
        [("options", .list (["pending", "paid", "shipped", "cancelled"].map .text)),
          ("default", .text "pending")],
      attributeRecord "total" "decimal" [("total", .int 12), ("places", .int 2)],
      attributeRecord "user_id" "foreignId" [("on", .text "users")],
      attributeRecord "deleted_at" "softDeletes" []]
      [relationRecord "user" "belongsTo" "User", relationRecord "items" "hasMany" "OrderItem"] [],
    componentRecord "OrderItem" [
      attributeRecord "order_id" "foreignId" [("on", .text "orders"), cascading],
      attributeRecord "product_id" "foreignId" [("on", .text "products")],
      attributeRecord "quantity" "integer" [],
      attributeRecord "unit_price" "decimal" [("total", .int 10), ("places", .int 2)]]
      [relationRecord "order" "belongsTo" "Order", relationRecord "product" "belongsTo" "Product"]
      [indexRecord ["order_id", "product_id"] [("type", .text "unique")]]]

/-- The example documents under the names of their files. -/
def examples : Keyed Value :=
  [("post.json", postExample), ("blog.json", blogExample), ("shop.json", shopExample)]

end Scaffold.Setup

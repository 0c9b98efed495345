import TypedMemory.Schema.Definition

/-!
# Predefined types

The types of the Cocos2d-x engine as its game clients lay them out, and the string objects of the
two representations.  They refer only to each other.
-/

namespace TypedMemory

namespace Builtin

def all : List Builtin :=
  [point, extent, rect, affineTransform, matrix4, object, arrayData, array, node,
    shortString, shortStringContent, countedString, countedStringHeader]

def name : Builtin → String
  | point => "CCPoint"
  | extent => "CCSize"
  | rect => "CCRect"
  | affineTransform => "CCAffineTransform"
  | matrix4 => "Matrix4"
  | object => "CCObject"
  | arrayData => "CCArrayData"
  | array => "CCArray"
  | node => "CCNode"
  | shortString => "std_string"
  | shortStringContent => "std_string_content"
  | countedString => "old_std_string"
  | countedStringHeader => "std_string_header"

/-- The predefined type with this name, in any case of its letters. -/
def ofName? (text : String) : Option Builtin :=
  all.find? fun type => Text.sameLetters type.name.toList text.toList

def kind : Builtin → TypeKind
  | shortStringContent => .union
  | _ => .struct

/-- The number of bytes, terminator included, that a short string object holds within itself. -/
def inlineCapacity : Nat := 16

/-- A pointer to something of which only the address matters. -/
def opaquePointer : Field := .pointer .void

def embedded (type : Builtin) : Field := .composite (.builtin type)

def pointerTo (type : Builtin) : Field := .pointer type.embedded

def named (field : Field) (names : List String) : List (String × Field) :=
  names.map fun name => (name, field)

/-- The members of a scene node, behind those of an object. -/
def nodeFields : List (String × Field) :=
  named (.scalar .float) ["rotation_x", "rotation_y", "scale_x", "scale_y", "vertex_z"] ++
  [("position", point.embedded)] ++
  named (.scalar .float) ["skew_x", "skew_y"] ++
  named point.embedded ["anchor_in_points", "anchor"] ++
  [("content_size", extent.embedded)] ++
  named affineTransform.embedded ["additional_transform", "transform", "inverse"] ++
  named opaquePointer ["camera", "grid"] ++
  [("z_order", .scalar .int),
    ("children", array.pointerTo),
    ("parent", node.pointerTo),
    ("user_data", opaquePointer),
    ("user_object", object.pointerTo),
    ("shader_program", opaquePointer),
    ("server_state", .scalar .int),
    ("order_of_arrival", .scalar .uint)] ++
  named opaquePointer ["scheduler", "action_manager"] ++
  named (.scalar .bool) ["running", "transform_dirty", "inverse_dirty",
    "additional_transform_dirty", "visible", "ignore_anchor_point_for_position",
    "reorder_child_dirty"] ++
  named (.scalar .int) ["script_handler", "update_script_handler", "script_type"] ++
  [("component_container", opaquePointer)]

def definition : Builtin → Definition
  | point => { fields := named (.scalar .float) ["x", "y"] }
  | extent => { fields := named (.scalar .float) ["width", "height"] }
  | rect => { fields := [("origin", point.embedded), ("size", extent.embedded)] }
  | affineTransform =>
    { fields := named (.scalar .float) ["a", "b", "c", "d", "translate_x", "translate_y"] }
  | matrix4 => { fields := [("matrix", .array (.scalar .float) (some 16))] }
  | object =>
    { hasVtable := true
      fields :=
        [("id", .scalar .uint), ("ref_id", .scalar .int), ("tag", .scalar .uint),
          ("object_type", .scalar .int), ("ref_count", .scalar .uint),
          ("auto_release_count", .scalar .uint), ("padding", .scalar .uint)] }
  | arrayData =>
    { fields :=
        [("length", .scalar .uint), ("capacity", .scalar .uint),
          ("array", .pointer (.array object.pointerTo none))] }
  | array => { base := some (.builtin object), fields := [("data", arrayData.pointerTo)] }
  | node => { base := some (.builtin object), fields := nodeFields }
  | shortString =>
    { fields :=
        [("content", shortStringContent.embedded), ("length", .scalar .usize),
          ("capacity", .scalar .usize)] }
  | shortStringContent =>
    { fields :=
        [("inline", .array (.scalar .ubyte) (some inlineCapacity)),
          ("pointer", .pointer (.array (.scalar .ubyte) none))] }
  | countedString => { fields := [("pointer", countedStringHeader.pointerTo)] }
  | countedStringHeader =>
    { fields :=
        [("capacity", .scalar .usize), ("length", .scalar .usize), ("ref_count", .scalar .isize),
          ("content", .array (.scalar .ubyte) none)]
      origin := some "content" }

/-- The predefined type as a schema holds it. -/
def entry (type : Builtin) : TypeEntry :=
  ⟨type.name, type.kind, some type.definition⟩

end Builtin

/-- The type of the string objects of a representation. -/
def StringAbi.objectType (abi : StringAbi) (p : Platform) : TypeId :=
  match abi.resolve p with
  | sso => .builtin .shortString
  | _ => .builtin .countedString

end TypedMemory
